import FirmwareWorkspace.SymbolIndex

/-!
# The files of a symbol index

Seen from its files, an index is a table from files to lists of symbols. Adding a file
replaces its list and leaves the others alone, although slots are never reused.
-/
namespace FirmwareWorkspace.SymbolIndex

/-- Every file is listed once, with slots that are in use. -/
structure IsSound (index : SymbolIndex) : Prop where
  inUse : ∀ entry ∈ index.byFile, ∀ slot ∈ entry.2, slot < index.slots.size
  nodup : (index.byFile.map (·.1)).Nodup

theorem isSound_empty : empty.IsSound where
  inUse _ member := nomatch member
  nodup := List.nodup_nil

/-! ### Removing and adding -/

theorem withdraw_slots (index : SymbolIndex) (slot : Nat) :
    (index.withdraw slot).slots = index.slots := by
  unfold withdraw
  split <;> rfl

theorem withdraw_byFile (index : SymbolIndex) (slot : Nat) :
    (index.withdraw slot).byFile = index.byFile := by
  unfold withdraw
  split <;> rfl

theorem remove_eq (index : SymbolIndex) (file : FileId) :
    (index.remove file).slots = index.slots ∧
      (index.remove file).byFile = index.byFile.filter (·.1 ≠ file) := by
  have folded (slots : List Nat) (index : SymbolIndex) :
      (slots.foldl withdraw index).slots = index.slots ∧
        (slots.foldl withdraw index).byFile = index.byFile := by
    induction slots generalizing index with
    | nil => exact ⟨rfl, rfl⟩
    | cons slot rest ih =>
      have ⟨slots, byFile⟩ := ih (index.withdraw slot)
      exact ⟨slots.trans (withdraw_slots index slot), byFile.trans (withdraw_byFile index slot)⟩
  have ⟨slots, byFile⟩ := folded ((index.byFile.lookup file).getD []) index
  exact ⟨slots, by simp only [remove, byFile]⟩

theorem foldl_push (symbols : List Symbol) (index : SymbolIndex) :
    (symbols.foldl push index).slots = index.slots ++ symbols.toArray ∧
      (symbols.foldl push index).byFile = index.byFile := by
  induction symbols generalizing index with
  | nil => exact ⟨by simp, rfl⟩
  | cons symbol rest ih =>
    have ⟨slots, byFile⟩ := ih (index.push symbol)
    refine ⟨?_, byFile⟩
    rw [List.foldl_cons, slots]
    simp [push]

theorem add_slots (index : SymbolIndex) (file : FileId) (symbols : List Symbol) :
    (index.add file symbols).slots = index.slots ++ symbols.toArray := by
  rw [← (index.remove_eq file).1]
  exact (foldl_push symbols (index.remove file)).1

theorem add_byFile (index : SymbolIndex) (file : FileId) (symbols : List Symbol) :
    (index.add file symbols).byFile = index.byFile.filter (·.1 ≠ file) ++
      [(file, (List.range symbols.length).map (index.slots.size + ·))] := by
  simp only [add, (foldl_push symbols (index.remove file)).2, (index.remove_eq file).1,
    (index.remove_eq file).2]

theorem isSound_add (index : SymbolIndex) (file : FileId) (symbols : List Symbol)
    (sound : index.IsSound) : (index.add file symbols).IsSound := by
  constructor
  · intro entry member slot inside
    have grown : (index.add file symbols).slots.size = index.slots.size + symbols.length := by
      rw [add_slots]
      simp only [Array.size_append, List.size_toArray]
    rw [add_byFile] at member
    rw [grown]
    rcases List.mem_append.mp member with old | new
    -- Old slots stay in use; the new ones follow them.
    · have used := sound.inUse entry (List.mem_filter.mp old).1 slot inside
      omega
    · rw [List.mem_singleton.mp new, List.mem_map] at inside
      obtain ⟨offset, inRange, rfl⟩ := inside
      have bound := List.mem_range.mp inRange
      omega
  · rw [add_byFile, List.map_append, List.nodup_append]
    refine ⟨?_, by simp, fun first old last single equal => ?_⟩
    · exact sound.nodup.sublist (List.filter_sublist.map _)
    · obtain ⟨entry, kept, rfl⟩ := List.mem_map.mp old
      rw [List.map_singleton, List.mem_singleton] at single
      have other := (List.mem_filter.mp kept).2
      rw [decide_eq_true_iff] at other
      exact other (equal.trans single)

/-! ### Symbols by file -/

theorem filterMap_range (symbols : List Symbol) :
    (List.range symbols.length).filterMap (fun offset => symbols[offset]?) = symbols := by
  induction symbols with
  | nil => rfl
  | cons symbol rest ih =>
    rw [List.length_cons, List.range_succ_eq_map, List.filterMap_cons, List.filterMap_map]
    exact congrArg (symbol :: ·) ih

theorem collect_fresh (slots : Array Symbol) (symbols : List Symbol) :
    ((List.range symbols.length).map (slots.size + ·)).filterMap
      (fun slot => (slots ++ symbols.toArray)[slot]?) = symbols := by
  have shifted (offset : Nat) : (slots ++ symbols.toArray)[slots.size + offset]? =
      symbols[offset]? := by
    rw [Array.getElem?_append_right (Nat.le_add_right _ _), Nat.add_sub_cancel_left,
      List.getElem?_toArray]
  rw [List.filterMap_map]
  exact (congrArg (List.filterMap · _) (funext shifted)).trans (filterMap_range symbols)

theorem collect_used (slots : Array Symbol) (symbols : List Symbol) (used : List Nat)
    (inUse : ∀ slot ∈ used, slot < slots.size) :
    used.filterMap (fun slot => (slots ++ symbols.toArray)[slot]?) =
      used.filterMap (fun slot => slots[slot]?) := by
  induction used with
  | nil => rfl
  | cons slot rest ih =>
    rw [List.filterMap_cons, List.filterMap_cons, ih fun slot member => inUse slot (.tail _ member),
      Array.getElem?_append_left (inUse slot (.head _))]

theorem lookup_add (index : SymbolIndex) (file other : FileId) (symbols : List Symbol) :
    (index.add file symbols).byFile.lookup other =
      if other = file then some ((List.range symbols.length).map (index.slots.size + ·))
      else index.byFile.lookup other := by
  have kept (entries : List (FileId × List Nat)) :
      (entries.filter (·.1 ≠ file)).lookup other =
        if other = file then none else entries.lookup other := by
    induction entries with
    | nil => simp
    | cons entry rest ih =>
      by_cases removed : entry.1 = file
      · rw [List.filter_cons_of_neg (by simp [removed]), ih, List.lookup_cons, removed]
        by_cases same : other = file
        · rw [if_pos same, if_pos same]
        · simp only [beq_eq_false_iff_ne.mpr same]
      · rw [List.filter_cons_of_pos (by simp [removed]), List.lookup_cons, List.lookup_cons, ih]
        by_cases same : other = file
        · have differs : other ≠ entry.1 := fun equal => removed (equal.symm.trans same)
          simp only [beq_eq_false_iff_ne.mpr differs, if_pos same]
        · simp only [if_neg same]
  rw [add_byFile, List.lookup_append, kept, List.lookup_cons]
  by_cases same : other = file
  · simp only [if_pos same, beq_iff_eq.mpr same, Option.none_or]
  · simp only [if_neg same, beq_eq_false_iff_ne.mpr same, List.lookup_nil, Option.or_none]

/-- Adding a file gives it its new symbols and leaves the other files theirs. -/
theorem inFile_add (index : SymbolIndex) (file other : FileId) (symbols : List Symbol)
    (sound : index.IsSound) :
    (index.add file symbols).inFile other =
      if other = file then symbols else index.inFile other := by
  rw [inFile, inFile, lookup_add, collect, collect, add_slots]
  by_cases same : other = file
  · rw [if_pos same, if_pos same]
    exact collect_fresh index.slots symbols
  · rw [if_neg same, if_neg same]
    -- Slots of other files are in use already, so what is added behind them does not matter.
    refine collect_used index.slots symbols _ fun slot member => ?_
    cases found : index.byFile.lookup other with
    | none =>
      rw [found] at member
      cases member
    | some used =>
      rw [found] at member
      obtain ⟨front, back, listed, _⟩ := List.lookup_eq_some_iff.mp found
      exact sound.inUse (other, used) (by simp [listed]) slot member

/-- The index holds the symbols of its files. -/
theorem mem_symbols_iff (index : SymbolIndex) (symbol : Symbol) (sound : index.IsSound) :
    symbol ∈ index.symbols ↔ ∃ file, symbol ∈ index.inFile file := by
  rw [symbols, List.mem_flatMap]
  constructor
  · rintro ⟨⟨file, slots⟩, member, collected⟩
    refine ⟨file, ?_⟩
    -- A lookup finds the entry itself, since no other one has its file.
    have found : index.byFile.lookup file = some slots := by
      obtain ⟨front, back, listed⟩ := List.append_of_mem member
      have nodup := sound.nodup
      rw [listed, List.map_append, List.map_cons, List.nodup_append] at nodup
      refine List.lookup_eq_some_iff.mpr ⟨front, back, listed, fun entry before => ?_⟩
      have differs := nodup.2.2 entry.1 (List.mem_map_of_mem before) file (.head _)
      simpa using differs.symm
    rwa [inFile, found]
  · rintro ⟨file, member⟩
    rw [inFile] at member
    cases found : index.byFile.lookup file with
    | none =>
      rw [found] at member
      cases member
    | some slots =>
      rw [found] at member
      obtain ⟨front, back, listed, _⟩ := List.lookup_eq_some_iff.mp found
      exact ⟨(file, slots), by simp [listed], member⟩

end FirmwareWorkspace.SymbolIndex
