import FirmwareWorkspace.Ascending
import Mathlib.Order.Lattice

/-!
# Ascending lists by a key

An order of items that compares keys of a linear order makes ascending lists of items lists
with ascending keys. Sorting then keeps exactly one item for each key that occurs.
-/
namespace FirmwareWorkspace.Ascending

variable {α : Type} {before : α → α → Bool}

theorem mem_of_mem_insert (item other : α) (items : List α)
    (member : other ∈ insert before item items) : other = item ∨ other ∈ items := by
  fun_induction insert before item items with
  | case1 => exact .inl (List.mem_singleton.mp member)
  | case2 first rest _ => exact List.mem_cons.mp member
  | case3 first rest _ _ ih =>
    rcases List.mem_cons.mp member with rfl | later
    · exact .inr (.head _)
    · exact (ih later).imp_right (.tail _)
  | case4 first rest _ _ => exact .inr member

theorem mem_of_mem_replace (before : α → α → Bool) (item other : α) (items : List α)
    (member : other ∈ replace before item items) : other = item ∨ other ∈ items := by
  fun_induction replace before item items with
  | case1 => exact .inl (List.mem_singleton.mp member)
  | case2 first rest _ => exact List.mem_cons.mp member
  | case3 first rest _ _ ih =>
    rcases List.mem_cons.mp member with rfl | later
    · exact .inr (.head _)
    · exact (ih later).imp_right (.tail _)
  | case4 first rest _ _ => exact (List.mem_cons.mp member).imp_right (.tail _)

/-- Sorting adds nothing. -/
theorem mem_of_mem_ofList (items : List α) (item : α) :
    item ∈ ofList before items → item ∈ items := by
  have folded (sorted : List α)
      (member : item ∈ items.foldl (fun sorted next => insert before next sorted) sorted) :
      item ∈ sorted ∨ item ∈ items := by
    induction items generalizing sorted with
    | nil => exact .inl member
    | cons first rest ih =>
      rcases ih _ member with early | later
      · rcases mem_of_mem_insert first item sorted early with rfl | old
        · exact .inr (.head _)
        · exact .inl old
      · exact .inr (.tail _ later)
  exact fun member => (folded [] member).resolve_left List.not_mem_nil

/-! ### Keys -/

variable {κ : Type} [LinearOrder κ]

/-- One item comes before another if its key is less. -/
def IsBy (before : α → α → Bool) (key : α → κ) : Prop :=
  ∀ left right, before left right = true ↔ key left < key right

namespace IsBy

variable {key : α → κ} (isBy : IsBy before key)
include isBy

theorem trans {first second third : α} (less : before first second = true)
    (next : before second third = true) : before first third = true :=
  (isBy first third).mpr (lt_trans ((isBy first second).mp less) ((isBy second third).mp next))

theorem pairwise_insert (item : α) (items : List α)
    (sorted : items.Pairwise fun earlier later => before earlier later = true) :
    (insert before item items).Pairwise fun earlier later => before earlier later = true := by
  fun_induction insert before item items with
  | case1 => exact List.pairwise_singleton _ _
  | case2 first rest less =>
    -- The item stands in front, so it comes before all that come after the first one.
    refine List.pairwise_cons.mpr ⟨fun other member => ?_, sorted⟩
    rcases List.mem_cons.mp member with rfl | later
    · exact less
    · exact isBy.trans less ((List.pairwise_cons.mp sorted).1 other later)
  | case3 first rest _ greater ih =>
    have ⟨head, tail⟩ := List.pairwise_cons.mp sorted
    refine List.pairwise_cons.mpr ⟨fun other member => ?_, ih tail⟩
    rcases mem_of_mem_insert item other rest member with rfl | old
    · exact greater
    · exact head other old
  | case4 first rest _ _ => exact sorted

/-- The key of the new item is there, and no key is lost. -/
theorem mem_map_insert (item : α) (items : List α) (wanted : κ) :
    wanted ∈ (insert before item items).map key ↔ wanted = key item ∨ wanted ∈ items.map key := by
  fun_induction insert before item items with
  | case1 => simp
  | case2 first rest less => simp
  | case3 first rest _ _ ih =>
    rw [List.map_cons, List.mem_cons, ih, List.map_cons, List.mem_cons]
    exact or_left_comm
  | case4 first rest notLess notGreater =>
    -- Neither key is less than the other, so both are the same.
    have same : key item = key first :=
      le_antisymm (not_lt.mp (mt (isBy first item).mpr notGreater))
        (not_lt.mp (mt (isBy item first).mpr notLess))
    rw [same, List.map_cons, List.mem_cons, or_self_left]

theorem pairwise_ofList (items : List α) :
    (ofList before items).Pairwise fun earlier later => before earlier later = true := by
  have folded (sorted : List α)
      (ascending : sorted.Pairwise fun earlier later => before earlier later = true) :
      (items.foldl (fun sorted next => insert before next sorted) sorted).Pairwise
        fun earlier later => before earlier later = true := by
    induction items generalizing sorted with
    | nil => exact ascending
    | cons first rest ih => exact ih _ (isBy.pairwise_insert first sorted ascending)
  exact folded [] .nil

theorem mem_map_ofList (items : List α) (wanted : κ) :
    wanted ∈ (ofList before items).map key ↔ wanted ∈ items.map key := by
  have folded (sorted : List α) :
      wanted ∈ (items.foldl (fun sorted next => insert before next sorted) sorted).map key ↔
        wanted ∈ sorted.map key ∨ wanted ∈ items.map key := by
    induction items generalizing sorted with
    | nil => simp
    | cons first rest ih =>
      rw [List.foldl_cons, ih, isBy.mem_map_insert, List.map_cons, List.mem_cons, or_assoc,
        or_left_comm]
  exact (folded []).trans (or_iff_right List.not_mem_nil)

/-- Every item is listed, perhaps by another one with its key. -/
theorem exists_of_mem (items : List α) (item : α) (member : item ∈ items) :
    ∃ listed ∈ ofList before items, key listed = key item :=
  List.mem_map.mp ((isBy.mem_map_ofList items (key item)).mpr (List.mem_map_of_mem member))

end IsBy

end FirmwareWorkspace.Ascending
