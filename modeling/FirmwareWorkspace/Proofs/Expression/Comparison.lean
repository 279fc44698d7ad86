import FirmwareWorkspace.Proofs.Expression.Safety
import Mathlib.Order.Defs.LinearOrder

/-!
# Comparisons agree with each other

Equality and the order tests are two functions, each with its own choice between the texts and the
integer views of its operands. They choose alike: two values are equal exactly if the order finds
them equal, and what has no order is not equal. So all six comparisons are functions of the order
of their operands, and how they fit together follows from what becomes of the order when the
operands are swapped.

Main result: `comparisons_coherent`.
-/
namespace FirmwareWorkspace.Expression

/-- The comparisons that need an order. -/
def orderTests : List BinaryOp :=
  [.lt, .gt, .le, .ge]

def comparisons : List BinaryOp :=
  .eq :: .ne :: orderTests

/-- An operator could not combine its operands. -/
def IsMismatch (answer : Except EvalError Value) : Prop :=
  ∃ operator left right, answer = .error (.typeMismatch operator left right)

/-- How the comparisons of two values fit together. `direct` gives their answers, and `swapped`
the answers with the operands in the other order. -/
structure IsCoherent (direct swapped : BinaryOp → Except EvalError Value) : Prop where
  /-- Equality is always answered, in both orders alike, and inequality by its negation. -/
  equality : ∃ same, direct .eq = .ok (.bool same) ∧ swapped .eq = .ok (.bool same) ∧
    direct .ne = .ok (.bool !same)
  /-- The order tests fail together, in both orders. -/
  mismatch : ∀ op ∈ orderTests, (IsMismatch (direct op) ↔ IsMismatch (direct .lt)) ∧
    (IsMismatch (swapped op) ↔ IsMismatch (direct .lt))
  /-- If they do not fail, exactly one of less, equal and greater holds, and these three decide
  the others. -/
  order : ¬ IsMismatch (direct .lt) → ∃ less same greater,
    direct .lt = .ok (.bool less) ∧ direct .eq = .ok (.bool same) ∧
      direct .gt = .ok (.bool greater) ∧ [less, same, greater].count true = 1 ∧
      direct .le = .ok (.bool (less || same)) ∧ direct .ge = .ok (.bool (greater || same)) ∧
      swapped .gt = .ok (.bool less)

/-- Only the comparisons count. -/
theorem IsCoherent.congr {direct swapped other otherSwapped : BinaryOp → Except EvalError Value}
    (coherent : IsCoherent direct swapped) (same : ∀ op ∈ comparisons, other op = direct op)
    (sameSwapped : ∀ op ∈ comparisons, otherSwapped op = swapped op) :
    IsCoherent other otherSwapped := by
  have eq := same .eq (by decide)
  have lt := same .lt (by decide)
  have tests : orderTests ⊆ comparisons := by decide
  constructor
  · rw [eq, same .ne (by decide), sameSwapped .eq (by decide)]
    exact coherent.equality
  · intro op member
    rw [same op (tests member), sameSwapped op (tests member), lt]
    exact coherent.mismatch op member
  · rw [eq, lt, same .gt (by decide), same .le (by decide), same .ge (by decide),
      sameSwapped .gt (by decide)]
    exact coherent.order

/-! ### Equality and order -/

theorem compareInt_swap (a b : Int) : compareOfLessAndEq b a = (compareOfLessAndEq a b).swap :=
  compareOfLessAndEq_eq_swap Int.le_antisymm Int.le_total Int.not_le

theorem compareInt_eq_iff (a b : Int) : compareOfLessAndEq a b = .eq ↔ a = b :=
  compareOfLessAndEq_eq_eq Int.le_refl Int.not_le

theorem compareString_swap (left right : String) :
    compareOfLessAndEq right left = (compareOfLessAndEq left right).swap :=
  compareOfLessAndEq_eq_swap String.le_antisymm String.le_total String.not_le

theorem compareString_eq_iff (left right : String) :
    compareOfLessAndEq left right = .eq ↔ left = right :=
  compareOfLessAndEq_eq_eq String.le_refl String.not_le

/-- Unless both values are texts, their order is that of the integer views. -/
theorem order_of_views (left right : Value)
    (apart : ∀ text other, left = .str text → right = .str other → False) :
    order? left right =
      left.asInt.bind fun a => right.asInt.map fun b => compareOfLessAndEq a b := by
  unfold order?
  split
  next text other => exact (apart text other rfl rfl).elim
  · cases left.asInt with
    | none => rfl
    | some a =>
      cases right.asInt with
      | none | some => rfl

theorem order_swap (left right : Value) :
    order? right left = (order? left right).map Ordering.swap := by
  by_cases texts : ∃ text other, left = .str text ∧ right = .str other
  · obtain ⟨text, other, rfl, rfl⟩ := texts
    exact congrArg some (compareString_swap text other)
  · -- Values that are not both texts are ordered by their integer views.
    rw [order_of_views left right fun text other first second =>
        texts ⟨text, other, first, second⟩,
      order_of_views right left fun text other second first =>
        texts ⟨other, text, first, second⟩]
    cases left.asInt with
    | none =>
      cases right.asInt with
      | none | some => rfl
    | some a =>
      cases right.asInt with
      | none => rfl
      | some b => exact congrArg some (compareInt_swap a b)

/-- Two values have no order if one of them has no integer view, unless both are texts. -/
theorem order_eq_none_iff (left right : Value) :
    order? left right = none ↔ (left.asInt = none ∨ right.asInt = none) ∧
      ¬ (left.kind = .string ∧ right.kind = .string) := by
  by_cases texts : left.kind = .string ∧ right.kind = .string
  · refine iff_of_false (fun unordered => ?_) fun views => views.2 texts
    cases left with
    | str text =>
      cases right with
      | str other => cases unordered
      | bool | int | undefined => cases texts.2
    | bool | int | undefined => cases texts.1
  · rw [order_of_views left right fun _ _ first second => texts ⟨first ▸ rfl, second ▸ rfl⟩,
      and_iff_left texts]
    cases left.asInt with
    | none => exact iff_of_true rfl (.inl rfl)
    | some a =>
      cases right.asInt with
      | none => exact iff_of_true rfl (.inr rfl)
      | some b => exact iff_of_false nofun (not_or.mpr ⟨nofun, nofun⟩)

/-- Values are equal exactly if the order finds them equal. -/
theorem equals_eq (left right : Value) : equals left right = (order? left right == some .eq) := by
  rw [Bool.eq_iff_iff, beq_iff_eq]
  unfold equals order?
  split
  next text other => rw [beq_iff_eq, Option.some.injEq, compareString_eq_iff]
  · split
    next a b _ _ => rw [beq_iff_eq, Option.some.injEq, compareInt_eq_iff]
    · exact iff_of_false nofun nofun

/-! ### Comparisons by order -/

/-- The answer of a comparison whose operands have this order, or no order. -/
def answerBy (order : Option Ordering) (complaint : BinaryOp → EvalError) (op : BinaryOp) :
    Except EvalError Value :=
  match op with
  | .eq => .ok (.bool (order == some .eq))
  | .ne => .ok (.bool (order != some .eq))
  | .lt => tested (· == .lt)
  | .gt => tested (· == .gt)
  | .le => tested (· != .gt)
  | _ => tested (· != .lt)
where
  tested (test : Ordering → Bool) : Except EvalError Value :=
    match order with
    | none => .error (complaint op)
    | some order => .ok (.bool (test order))

theorem applyBinary_comparison (left right : Value) (defined : left ≠ .undefined)
    (definedToo : right ≠ .undefined) (op : BinaryOp) (member : op ∈ comparisons) :
    applyBinary op left right = answerBy (order? left right) (mismatch · left right) op := by
  have absorbed : ¬ (left = .undefined ∨ right = .undefined) := not_or.mpr ⟨defined, definedToo⟩
  simp only [comparisons, orderTests, List.mem_cons, List.not_mem_nil, or_false] at member
  rcases member with rfl | rfl | rfl | rfl | rfl | rfl
  all_goals simp only [applyBinary, if_neg absorbed, compared, equals_eq, answerBy]
  · rfl
  all_goals
    cases order? left right with
    | none | some => rfl

section Coherent

variable (order : Option Ordering) (left right : Value)

theorem isMismatch_answerBy (op : BinaryOp) (member : op ∈ orderTests) :
    IsMismatch (answerBy order (mismatch · left right) op) ↔ order = none := by
  simp only [orderTests, List.mem_cons, List.not_mem_nil, or_false] at member
  cases order with
  | none =>
    refine iff_of_true ⟨op.symbol, left.kind, right.kind, ?_⟩ rfl
    rcases member with rfl | rfl | rfl | rfl
    all_goals rfl
  | some found =>
    refine iff_of_false (fun ⟨_, _, _, failed⟩ => ?_) (nofun)
    rcases member with rfl | rfl | rfl | rfl
    all_goals cases failed

/-- With the operands swapped, the order is turned round. -/
theorem isCoherent_answerBy :
    IsCoherent (answerBy order (mismatch · left right))
      (answerBy (order.map Ordering.swap) (mismatch · right left)) := by
  have failed := isMismatch_answerBy order left right
  have failedSwapped := isMismatch_answerBy (order.map Ordering.swap) right left
  constructor
  · refine ⟨order == some .eq, rfl, ?_, rfl⟩
    cases order with
    | none => rfl
    | some found =>
      cases found with
      | lt | eq | gt => rfl
  · intro op member
    rw [failed op member, failedSwapped op member, failed .lt (by decide), Option.map_eq_none_iff]
    exact ⟨.rfl, .rfl⟩
  · rw [failed .lt (by decide)]
    intro ordered
    obtain ⟨found, rfl⟩ := Option.ne_none_iff_exists'.mp ordered
    refine ⟨found == .lt, found == .eq, found == .gt, ?_⟩
    cases found with
    | lt | eq | gt => exact ⟨rfl, rfl, rfl, rfl, rfl, rfl, rfl⟩

end Coherent

/-- The comparisons of two defined values, whatever their types, fit together, also where the
values are those of two trees: equality is always answered, the same in both orders, and
inequality is its negation; the order tests fail all or none, in both orders; and where they do
not fail, exactly one of less, equal and greater holds, the other two tests follow from these,
and less becomes greater when the operands are swapped. They fail if one of the values has no
integer view, unless both are texts. -/
theorem comparisons_coherent (a b : Value) (defined : a ≠ .undefined ∧ b ≠ .undefined) :
    IsCoherent (applyBinary · a b) (applyBinary · b a) ∧
      (IsMismatch (applyBinary .lt a b) ↔ (a.asInt = none ∨ b.asInt = none) ∧
        ¬ (a.kind = .string ∧ b.kind = .string)) ∧
      ∀ scope left right, evaluate scope left = .ok a → evaluate scope right = .ok b →
        IsCoherent (fun op => evaluate scope (.binary op left right))
          (fun op => evaluate scope (.binary op right left)) := by
  have direct := applyBinary_comparison a b defined.1 defined.2
  -- The order of the swapped operands is the order turned round.
  have values : IsCoherent (applyBinary · a b) (applyBinary · b a) := by
    refine (isCoherent_answerBy (order? a b) a b).congr direct fun op member => ?_
    rw [← order_swap]
    exact applyBinary_comparison b a defined.2 defined.1 op member
  have strict (value : Value) : ∀ op ∈ comparisons, shortcut? op value = none := by
    simp [comparisons, orderTests, shortcut?]
  refine ⟨values, ?_, fun scope left right first second => values.congr ?_ ?_⟩
  · rw [direct .lt (by decide), isMismatch_answerBy _ _ _ .lt (by decide), order_eq_none_iff]
  · exact fun op member => evaluate_binary scope op left right a b first second (strict a op member)
  · exact fun op member => evaluate_binary scope op right left b a second first (strict b op member)

/-- A quoted number and a number have an order, and `"0x1F"` is greater than `30`. -/
theorem quotedNumber_coherent :
    (Value.str "0x1F" ≠ .undefined ∧ Value.int 30 ≠ .undefined) ∧
      order? (.str "0x1F") (.int 30) = some .gt ∧
      IsCoherent (fun op => evaluate ⟨fun _ => none, fun _ _ => none⟩
          (.binary op (.quoted "0x1F") (.number 30)))
        (fun op => evaluate ⟨fun _ => none, fun _ _ => none⟩
          (.binary op (.number 30) (.quoted "0x1F"))) := by
  have defined : Value.str "0x1F" ≠ .undefined ∧ Value.int 30 ≠ .undefined := ⟨nofun, nofun⟩
  obtain ⟨_, _, trees⟩ := comparisons_coherent (.str "0x1F") (.int 30) defined
  exact ⟨defined, by decide +kernel, trees _ (.quoted "0x1F") (.number 30) rfl rfl⟩

end FirmwareWorkspace.Expression
