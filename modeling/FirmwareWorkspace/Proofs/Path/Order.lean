import FirmwareWorkspace.Path
import FirmwareWorkspace.Proofs.Ascending
import Mathlib.Data.List.Lex
import Mathlib.Data.Prod.Lex
import Mathlib.Data.String.Basic

/-!
# The order of paths

Paths are ordered by keys: lists over a linear order, one entry for each part, compared
lexicographically. Two paths have the same key exactly if they have the same parts, so the
order of paths is strict, and of two different paths one comes before the other.
-/
namespace FirmwareWorkspace.Path

/-- Where a part stands among others: its kind, then its name. -/
def Part.key : Part → ℕ ×ₗ String
  | .name text => toLex (3, text)
  | part => toLex (precedes.rank part, "")

theorem Part.key_injective : Function.Injective Part.key := by
  intro left right same
  cases left <;> cases right <;> simp_all [key, precedes.rank]

theorem Part.precedes_isBy : Ascending.IsBy Part.precedes Part.key := by
  intro left right
  cases left <;> cases right <;>
    simp [precedes, key, precedes.rank, Prod.Lex.toLex_lt_toLex]

/-- Where a path stands among others. -/
def key (path : Path) : List (ℕ ×ₗ String) :=
  path.parts.map Part.key

theorem comesBefore_iff (lefts rights : List Part) :
    comesBefore lefts rights = true ↔ lefts.map Part.key < rights.map Part.key := by
  fun_induction comesBefore lefts rights with
  | case1 => simp
  | case2 => simp
  | case3 => simp
  | case4 left lefts right rights ih =>
    -- Only parts that are the same leave the comparison to the rest.
    rw [List.map_cons, List.map_cons, List.cons_lt_cons_iff, ← ih, ← Part.precedes_isBy,
      Part.key_injective.eq_iff, Bool.or_eq_true, Bool.and_eq_true, beq_iff_eq]

theorem before_isBy : Ascending.IsBy before key := fun left right =>
  comesBefore_iff left.parts right.parts

theorem same_iff_key (left right : Path) : left.same right = true ↔ left.key = right.key := by
  rw [same, beq_iff_eq, key, key, (List.map_injective_iff.mpr Part.key_injective).eq_iff]

end FirmwareWorkspace.Path
