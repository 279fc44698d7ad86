import FirmwareWorkspace.Registry

/-!
# What registries hold

A registry that takes in an item by its key finds that item under the key and the others
under theirs. One that leaves out repeats holds nothing but what was put in.
-/
namespace FirmwareWorkspace.Registry

variable {α κ : Type} [DecidableEq κ]

theorem map_put {β : Type} (image : α → β) (key : α → κ) (imageKey : β → κ)
    (kept : ∀ item, imageKey (image item) = key item) (item : α) (items : List α) :
    (put key item items).map image = put imageKey (image item) (items.map image) := by
  induction items with
  | nil => rfl
  | cons first rest ih =>
    rw [put, List.map_cons, put, kept, kept]
    by_cases same : key first = key item
    · rw [if_pos same, if_pos same, List.map_cons]
    · rw [if_neg same, if_neg same, List.map_cons, ih]

theorem find_put (key : α → κ) (item : α) (items : List α) (wanted : κ) :
    (put key item items).find? (key · = wanted) =
      if key item = wanted then some item else items.find? (key · = wanted) := by
  induction items with
  | nil =>
    by_cases own : key item = wanted
    · simp [put, own]
    · simp [put, own]
  | cons first rest ih =>
    rw [put]
    by_cases same : key first = key item
    · by_cases own : key item = wanted
      · simp [same, own]
      · simp [same, own]
    · -- The new item goes behind the first one, which may be the one that is looked up.
      rw [if_neg same, List.find?_cons, List.find?_cons, ih]
      by_cases found : key first = wanted
      · have other : key item ≠ wanted := fun equal => same (found.trans equal.symm)
        simp [found, other]
      · simp [found]

/-- Nothing but the new item is added. -/
theorem mem_of_mem_put (key : α → κ) (item other : α) (items : List α)
    (member : other ∈ put key item items) : other = item ∨ other ∈ items := by
  induction items with
  | nil => exact .inl (List.mem_singleton.mp member)
  | cons first rest ih =>
    rw [put] at member
    split at member
    · exact (List.mem_cons.mp member).imp_right (.tail _)
    · rcases List.mem_cons.mp member with rfl | later
      · exact .inr (.head _)
      · exact (ih later).imp_right (.tail _)

/-- An item is found under its key if no other item has that key. -/
theorem find_of_mem (key : α → κ) (items : List α) (nodup : (items.map key).Nodup) (item : α)
    (member : item ∈ items) : items.find? (key · = key item) = some item := by
  induction items with
  | nil => cases member
  | cons first rest ih =>
    rw [List.map_cons, List.nodup_cons] at nodup
    rcases List.mem_cons.mp member with rfl | later
    · simp
    · have other : key first ≠ key item :=
        fun equal => nodup.1 (equal ▸ List.mem_map_of_mem later)
      simp [other, ih nodup.2 later]

/-- The key of the new item is there, and no key is lost. -/
theorem mem_map_put (key : α → κ) (item : α) (items : List α) (wanted : κ)
    (known : wanted = key item ∨ wanted ∈ items.map key) :
    wanted ∈ (put key item items).map key := by
  induction items with
  | nil => exact known.elim (fun own => own ▸ .head _) fun none => nomatch none
  | cons first rest ih =>
    rw [put]
    split
    next same =>
      rw [List.map_cons, ← same]
      exact known.elim (fun own => own.trans same.symm ▸ .head _) id
    · rw [List.map_cons, List.mem_cons]
      rcases known with own | before
      · exact .inr (ih (.inl own))
      · exact (List.mem_cons.mp before).imp_right fun later => ih (.inr later)

theorem nodup_addAllNew [BEq α] [LawfulBEq α] (items added : List α) (nodup : items.Nodup) :
    (addAllNew (· == ·) items added).Nodup := by
  induction added generalizing items with
  | nil => exact nodup
  | cons first rest ih =>
    apply ih
    unfold addNew
    split
    · exact nodup
    next absent =>
      rw [List.nodup_append]
      refine ⟨nodup, by simp, ?_⟩
      intro item member other single equal
      rw [List.mem_singleton.mp single] at equal
      exact absent (List.any_eq_true.mpr ⟨item, member, beq_iff_eq.mpr equal⟩)

theorem mem_addAllNew (same : α → α → Bool) (items added : List α) (item : α)
    (member : item ∈ addAllNew same items added) : item ∈ items ∨ item ∈ added := by
  induction added generalizing items with
  | nil => exact .inl member
  | cons first rest ih =>
    rcases ih (addNew same items first) member with old | later
    · unfold addNew at old
      split at old
      · exact .inl old
      · rcases List.mem_append.mp old with old | new
        · exact .inl old
        · exact .inr (List.mem_singleton.mp new ▸ .head _)
    · exact .inr (.tail _ later)

/-- If only equal items count as the same, no item is left out. -/
theorem mem_addAllNew_iff [BEq α] [LawfulBEq α] (items added : List α) (item : α) :
    item ∈ addAllNew (· == ·) items added ↔ item ∈ items ∨ item ∈ added := by
  induction added generalizing items with
  | nil => simp [addAllNew]
  | cons first rest ih =>
    have inserted : item ∈ addNew (· == ·) items first ↔ item ∈ items ∨ item = first := by
      unfold addNew
      split
      next there =>
        obtain ⟨other, member, same⟩ := List.any_eq_true.mp there
        obtain rfl := eq_of_beq same
        exact ⟨.inl, fun either => either.elim id fun own => own ▸ member⟩
      · simp
    rw [addAllNew, List.foldl_cons, ← addAllNew, ih, inserted, List.mem_cons, or_assoc]

/-- An item that is added counts as the same as none of those before. -/
theorem fresh_of_mem_addAllNew (same : α → α → Bool) (items added : List α) (item : α)
    (member : item ∈ addAllNew same items added) :
    item ∈ items ∨ item ∈ added ∧ ∀ old ∈ items, same old item = false := by
  induction added generalizing items with
  | nil => exact .inl member
  | cons first rest ih =>
    unfold addAllNew at ih member
    rw [List.foldl_cons, addNew] at member
    split at member
    · exact (ih items member).imp_right (.imp_left (.tail _))
    next absent =>
      rw [List.any_eq_true, not_exists] at absent
      rcases ih _ member with old | ⟨later, fresh⟩
      · rcases List.mem_append.mp old with old | new
        · exact .inl old
        · obtain rfl := List.mem_singleton.mp new
          refine .inr ⟨.head _, fun old there => ?_⟩
          rw [← Bool.not_eq_true]
          exact fun equal => absent old ⟨there, equal⟩
      · exact .inr ⟨.tail _ later, fun old there => fresh old (List.mem_append_left _ there)⟩

theorem mem_addAllNew_of_mem (same : α → α → Bool) (items added : List α) (item : α)
    (member : item ∈ items) : item ∈ addAllNew same items added := by
  induction added generalizing items with
  | nil => exact member
  | cons first rest ih =>
    apply ih
    unfold addNew
    split
    · exact member
    · exact List.mem_append_left _ member

/-- Items that count as the same by a key are added as their keys are. -/
theorem map_addAllNew (key : α → κ) (items added : List α) :
    (addAllNew (fun left right => key left == key right) items added).map key =
      addAllNew (· == ·) (items.map key) (added.map key) := by
  induction added generalizing items with
  | nil => rfl
  | cons first rest ih =>
    have once : (addNew (fun left right => key left == key right) items first).map key =
        addNew (· == ·) (items.map key) (key first) := by
      unfold addNew
      rw [List.any_map]
      split
      next there => exact (if_pos there).symm
      next absent => exact List.map_append.trans (if_neg absent).symm
    unfold addAllNew at ih ⊢
    rw [List.foldl_cons, ih, once, List.map_cons, List.foldl_cons]

/-- Of the items with one key that was not there the first is added. -/
theorem addAllNew_eq_eraseDupsBy {β : Type} [BEq β] [LawfulBEq β] (key : α → β)
    (kept added : List α) :
    addAllNew (fun left right => key left == key right) kept added =
      kept ++ (added.filter fun item => !kept.any (key · == key item)).eraseDupsBy
        (fun left right => key left == key right) := by
  induction added generalizing kept with
  | nil => simp [addAllNew]
  | cons item rest ih =>
    simp only [addAllNew, List.foldl_cons] at ih ⊢
    rw [ih, addNew]
    split
    next known => simp [known]
    next fresh =>
      -- The new item is kept, and later ones are compared with it as well.
      simp only [List.filter_cons, fresh, Bool.not_false, if_true, List.eraseDupsBy_cons,
        List.filter_filter, List.append_assoc, List.singleton_append]
      congr 3
      refine List.filter_congr fun other _ => ?_
      have swap : (key other == key item) = (key item == key other) := BEq.comm
      simp only [List.any_append, List.any_cons, List.any_nil, Bool.or_false, Bool.not_or, swap,
        Bool.decide_eq_false]
      exact Bool.and_comm _ _

end FirmwareWorkspace.Registry
