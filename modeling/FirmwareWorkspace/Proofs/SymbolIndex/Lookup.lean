import FirmwareWorkspace.Proofs.SymbolIndex.Entries

/-!
# What lookups in a symbol index give

An index stands for a list of files with their symbols, in the order in which the files were
added. Adding a file moves it to the end of the list, and removing it takes it out.

Main result: `SymbolIndex.answersAs_changes`. After any changes every lookup by name, value,
kind, place or qualifier is the filter of all symbols that it stands for.

The slots in use of all files, in the order of the files, carry the invariant. Every table of
slots by key holds, for each key, the slots of that list whose symbols have the key.
-/
namespace FirmwareWorkspace

/-! ### Slots by key -/

namespace Postings

variable {κ : Type} [DecidableEq κ]

theorem get_cons (first key : κ) (slots : List Nat) (rest : Postings κ) :
    Postings.get ((first, slots) :: rest) key = if first = key then slots else rest.get key := rfl

theorem get_add (postings : Postings κ) (key other : κ) (slot : Nat) :
    (postings.add key slot).get other =
      if key = other then postings.get other ++ [slot] else postings.get other := by
  induction postings with
  | nil => simp [add, get]
  | cons entry rest ih =>
    obtain ⟨first, slots⟩ := entry
    by_cases found : first = key
    · subst found
      by_cases same : first = other <;> simp [add, get_cons, same]
    · simp only [add, found, if_false, get_cons, ih]
      by_cases asked : first = other
      · -- The entry that is asked for stands before the key, so it has another one.
        have differs : key ≠ other := fun equal => found (asked.trans equal.symm)
        simp only [asked, differs, if_true, if_false]
      · simp only [asked, if_false]

theorem get_of_absent (postings : Postings κ) (key : κ)
    (absent : key ∉ postings.map (·.1)) : postings.get key = [] := by
  induction postings with
  | nil => rfl
  | cons entry rest ih =>
    simp only [List.map_cons, List.mem_cons, not_or] at absent
    rw [get, if_neg fun equal => absent.1 equal.symm]
    exact ih absent.2

theorem get_withdraw (postings : Postings κ) (key other : κ) (slot : Nat)
    (distinct : (postings.map (·.1)).Nodup) :
    (postings.withdraw key slot).get other =
      if key = other then (postings.get other).filter (· ≠ slot) else postings.get other := by
  induction postings with
  | nil => simp [withdraw, get]
  | cons entry rest ih =>
    obtain ⟨first, slots⟩ := entry
    simp only [List.map_cons, List.nodup_cons] at distinct
    by_cases found : first = key
    · subst found
      simp only [withdraw, if_true, get_cons]
      by_cases emptied : slots.filter (· ≠ slot) = []
      · rw [if_pos emptied]
        by_cases same : first = other
        · -- The key goes with its last slot, and it does not stand a second time.
          subst same
          simp only [if_true, emptied, get_of_absent rest first distinct.1]
        · simp only [same, if_false]
      · rw [if_neg emptied, get_cons]
        by_cases same : first = other <;> simp only [same, if_true, if_false]
    · simp only [withdraw, found, if_false, get_cons, ih distinct.2]
      by_cases asked : first = other
      · have differs : key ≠ other := fun equal => found (asked.trans equal.symm)
        simp only [asked, differs, if_true, if_false]
      · simp only [asked, if_false]

theorem keys_add (postings : Postings κ) (key : κ) (slot : Nat) :
    (postings.add key slot).map (·.1) =
      if key ∈ postings.map (·.1) then postings.map (·.1) else postings.map (·.1) ++ [key] := by
  induction postings with
  | nil => simp [add]
  | cons entry rest ih =>
    by_cases found : entry.1 = key
    · simp [add, found]
    · have differs : key ≠ entry.1 := fun equal => found equal.symm
      simp only [add, found, if_false, List.map_cons, ih, List.mem_cons, differs, false_or]
      split <;> rfl

theorem keys_withdraw_sublist (postings : Postings κ) (key : κ) (slot : Nat) :
    ((postings.withdraw key slot).map (·.1)).Sublist (postings.map (·.1)) := by
  induction postings with
  | nil => exact .slnil
  | cons entry rest ih =>
    rw [withdraw]
    split
    · dsimp only
      split
      · exact List.sublist_cons_self _ _
      · exact .refl _
    · exact ih.cons_cons _

/-- A table lists, for every key, the slots of a list that have the key, in their order. -/
structure Lists (postings : Postings κ) (keyOf : Nat → Option κ) (live : List Nat) : Prop where
  distinct : (postings.map (·.1)).Nodup
  get : ∀ key, postings.get key = live.filter (keyOf · = some key)

namespace Lists

variable {postings : Postings κ} {keyOf : Nat → Option κ} {live : List Nat}

theorem congr {other : Nat → Option κ} (lists : postings.Lists keyOf live)
    (agree : ∀ slot ∈ live, other slot = keyOf slot) : postings.Lists other live where
  distinct := lists.distinct
  get key := by
    rw [lists.get]
    exact List.filter_congr fun slot member => by rw [agree slot member]

theorem add (lists : postings.Lists keyOf live) (key : κ) (slot : Nat)
    (keyed : keyOf slot = some key) : (postings.add key slot).Lists keyOf (live ++ [slot]) where
  distinct := by
    rw [keys_add]
    split
    · exact lists.distinct
    next absent =>
      rw [List.nodup_append]
      refine ⟨lists.distinct, by simp, ?_⟩
      intro first member last single equal
      rw [List.mem_singleton.mp single] at equal
      exact absent (equal ▸ member)
  get other := by
    rw [get_add, lists.get, List.filter_append]
    by_cases same : key = other <;> simp [keyed, same]

theorem withdraw (lists : postings.Lists keyOf live) (key : κ) (slot : Nat)
    (keyed : keyOf slot = some key) :
    (postings.withdraw key slot).Lists keyOf (live.filter (· ≠ slot)) where
  distinct := lists.distinct.sublist (keys_withdraw_sublist postings key slot)
  get other := by
    rw [get_withdraw _ _ _ _ lists.distinct, lists.get, List.filter_filter, List.filter_filter]
    by_cases same : key = other
    · simp only [same, if_true, Bool.and_comm]
    · -- The slot has another key, so it is not among those of the key that is asked for.
      rw [if_neg same]
      apply List.filter_congr
      intro other _
      by_cases own : other = slot <;> simp [own, keyed, same]

end Lists

end Postings

/-! ### Slots in use -/

namespace SymbolIndex

/-- The slots in use, file by file. -/
def live (index : SymbolIndex) : List Nat :=
  index.byFile.flatMap (·.2)

/-- All three tables list the same slots, which are in use. -/
structure Tabulates (index : SymbolIndex) (live : List Nat) : Prop where
  inUse : ∀ slot ∈ live, slot < index.slots.size
  names : index.byName.Lists (fun slot => index.slots[slot]?.map (·.name)) live
  values : index.byValue.Lists (fun slot => index.slots[slot]?.map (·.value)) live
  kinds : index.byKind.Lists (fun slot => index.slots[slot]?.map (·.kind)) live

namespace Tabulates

variable {index : SymbolIndex} {live : List Nat}

theorem withdraw (tabulates : index.Tabulates live) (slot : Nat) :
    (index.withdraw slot).Tabulates (live.filter (· ≠ slot)) := by
  have kept := index.withdraw_slots slot
  unfold SymbolIndex.withdraw at kept ⊢
  cases filled : index.slots[slot]? with
  | none =>
    -- A slot that is not in use is not listed.
    have unlisted : live.filter (· ≠ slot) = live := by
      apply List.filter_eq_self.mpr
      intro other member
      have used := tabulates.inUse other member
      have beyond := Array.getElem?_eq_none_iff.mp filled
      simp only [decide_eq_true_eq]
      omega
    rw [unlisted]
    exact tabulates
  | some symbol =>
    constructor
    · intro other member
      exact tabulates.inUse other (List.mem_filter.mp member).1
    · exact tabulates.names.withdraw _ _ (by simp [filled])
    · exact tabulates.values.withdraw _ _ (by simp [filled])
    · exact tabulates.kinds.withdraw _ _ (by simp [filled])

theorem foldl_withdraw (tabulates : index.Tabulates live) (slots : List Nat) :
    (slots.foldl SymbolIndex.withdraw index).Tabulates (live.filter (· ∉ slots)) := by
  induction slots generalizing index live with
  | nil =>
    have all : live.filter (· ∉ ([] : List Nat)) = live := List.filter_eq_self.mpr (by simp)
    rw [all]
    exact tabulates
  | cons slot rest ih =>
    have left := ih (tabulates.withdraw slot)
    rw [List.filter_filter] at left
    simpa [Bool.and_comm] using left

theorem push (tabulates : index.Tabulates live) (symbol : Symbol) :
    (index.push symbol).Tabulates (live ++ [index.slots.size]) := by
  -- What stands behind the slots in use does not change their symbols.
  have agree {β : Type} (field : Symbol → β) (slot : Nat) (member : slot ∈ live) :
      (index.push symbol).slots[slot]?.map field = index.slots[slot]?.map field := by
    have used := tabulates.inUse slot member
    rw [SymbolIndex.push, Array.getElem?_push, if_neg (by omega)]
  have own {β : Type} (field : Symbol → β) :
      (index.push symbol).slots[index.slots.size]?.map field = some (field symbol) := by
    simp [SymbolIndex.push]
  constructor
  · intro slot member
    simp only [SymbolIndex.push, Array.size_push]
    rcases List.mem_append.mp member with old | new
    · have used := tabulates.inUse slot old
      omega
    · have fresh := List.mem_singleton.mp new
      omega
  · exact (tabulates.names.congr (agree _)).add _ _ (own _)
  · exact (tabulates.values.congr (agree _)).add _ _ (own _)
  · exact (tabulates.kinds.congr (agree _)).add _ _ (own _)

theorem foldl_push (tabulates : index.Tabulates live) (symbols : List Symbol) :
    (symbols.foldl SymbolIndex.push index).Tabulates
      (live ++ (List.range symbols.length).map (index.slots.size + ·)) := by
  induction symbols generalizing index live with
  | nil => simpa using tabulates
  | cons symbol rest ih =>
    have grown : (index.push symbol).slots.size = index.slots.size + 1 := by
      simp [SymbolIndex.push]
    have filled := ih (tabulates.push symbol)
    rw [grown] at filled
    rw [List.foldl_cons, List.length_cons, List.range_succ_eq_map]
    simpa [Function.comp_def, Nat.add_assoc, Nat.add_comm 1] using filled

end Tabulates

/-! ### Entries -/

/-- A change of an index. -/
inductive Change where
  | add (file : FileId) (symbols : List Symbol)
  | remove (file : FileId)
  deriving DecidableEq, Repr

def change (index : SymbolIndex) : Change → SymbolIndex
  | .add file symbols => index.add file symbols
  | .remove file => index.remove file

/-- Files with their symbols, in the order in which they were added. -/
abbrev Entries := List (FileId × List Symbol)

namespace Entries

def erase (entries : Entries) (file : FileId) : Entries :=
  entries.filter (·.1 ≠ file)

def change (entries : Entries) : Change → Entries
  | .add file symbols => entries.erase file ++ [(file, symbols)]
  | .remove file => entries.erase file

def symbols (entries : Entries) : List Symbol :=
  entries.flatMap (·.2)

end Entries

/-- The entries that an index holds in its slots. -/
def entries (index : SymbolIndex) : Entries :=
  index.byFile.map fun (file, slots) => (file, index.collect slots)

/-- No slot is used twice, and the tables list the slots in use. -/
structure IsExact (index : SymbolIndex) : Prop where
  sound : index.IsSound
  distinct : index.live.Nodup
  tabulates : index.Tabulates index.live

theorem isExact_empty : empty.IsExact where
  sound := isSound_empty
  distinct := .nil
  tabulates := {
    inUse := fun _ member => nomatch member
    names := ⟨.nil, fun _ => rfl⟩
    values := ⟨.nil, fun _ => rfl⟩
    kinds := ⟨.nil, fun _ => rfl⟩ }

theorem mem_live_of_lookup (byFile : List (FileId × List Nat)) (file : FileId) (slot : Nat)
    (member : slot ∈ (byFile.lookup file).getD []) : slot ∈ byFile.flatMap (·.2) := by
  cases found : byFile.lookup file with
  | none => simp [found] at member
  | some slots =>
    obtain ⟨front, back, rfl, _⟩ := List.lookup_eq_some_iff.mp found
    rw [found, Option.getD_some] at member
    simp [member]

/-- Without a file, the slots in use are those that were not its own. -/
theorem flatMap_erase (byFile : List (FileId × List Nat)) (file : FileId)
    (files : (byFile.map (·.1)).Nodup) (slots : (byFile.flatMap (·.2)).Nodup) :
    (byFile.filter (·.1 ≠ file)).flatMap (·.2) =
      (byFile.flatMap (·.2)).filter (· ∉ (byFile.lookup file).getD []) := by
  induction byFile with
  | nil => rfl
  | cons entry rest ih =>
    obtain ⟨first, own⟩ := entry
    simp only [List.map_cons, List.nodup_cons] at files
    simp only [List.flatMap_cons, List.nodup_append] at slots
    obtain ⟨_, distinct, apart⟩ := slots
    rw [List.flatMap_cons, List.filter_append, List.lookup_cons]
    by_cases same : first = file
    · subst same
      -- No other entry has the file, and no other file has one of its slots.
      have others : rest.filter (·.1 ≠ first) = rest := by
        apply List.filter_eq_self.mpr
        intro entry member
        simp only [ne_eq, decide_eq_true_eq]
        exact fun equal => files.1 (equal ▸ List.mem_map_of_mem member)
      have gone : own.filter (· ∉ own) = [] := by simp
      have kept : (rest.flatMap (·.2)).filter (· ∉ own) = rest.flatMap (·.2) := by
        apply List.filter_eq_self.mpr
        intro slot member
        simp only [decide_eq_true_eq]
        exact fun inside => apart slot inside slot member rfl
      simp only [List.filter_cons_of_neg, ne_eq, not_true_eq_false, decide_false,
        Bool.false_eq_true, not_false_eq_true, beq_self_eq_true, Option.getD_some, gone, kept,
        List.nil_append]
      exact congrArg (List.flatMap (·.2)) others
    · have differs : (file == first) = false := by simpa using fun equal => same equal.symm
      have kept : own.filter (· ∉ (rest.lookup file).getD []) = own := by
        apply List.filter_eq_self.mpr
        intro slot member
        simp only [decide_eq_true_eq]
        exact fun inside => apart slot member slot (mem_live_of_lookup rest file slot inside) rfl
      simp only [differs, kept]
      rw [List.filter_cons_of_pos (by simpa using same), List.flatMap_cons, ih files.2 distinct]

theorem IsExact.remove {index : SymbolIndex} (isExact : index.IsExact) (file : FileId) :
    (index.remove file).IsExact := by
  have ⟨slots, byFile⟩ := index.remove_eq file
  have left : (index.remove file).live =
      index.live.filter (· ∉ (index.byFile.lookup file).getD []) := by
    rw [live, byFile]
    exact flatMap_erase index.byFile file isExact.sound.nodup isExact.distinct
  constructor
  · constructor
    · intro entry member
      rw [byFile] at member
      rw [slots]
      exact isExact.sound.inUse entry (List.mem_filter.mp member).1
    · rw [byFile]
      exact isExact.sound.nodup.sublist (List.filter_sublist.map _)
  · rw [left]
    exact isExact.distinct.sublist List.filter_sublist
  · rw [left]
    -- The tables are those of the index before its list of files was cut.
    exact { isExact.tabulates.foldl_withdraw _ with }

theorem IsExact.add {index : SymbolIndex} (isExact : index.IsExact) (file : FileId)
    (symbols : List Symbol) : (index.add file symbols).IsExact := by
  have cut := isExact.remove file
  have slots := (index.remove_eq file).1
  have grown : (index.add file symbols).live = (index.remove file).live ++
      (List.range symbols.length).map ((index.remove file).slots.size + ·) := by
    rw [live, live, add_byFile, (index.remove_eq file).2, slots]
    simp
  constructor
  · exact isSound_add index file symbols isExact.sound
  · rw [grown, List.nodup_append]
    refine ⟨cut.distinct, ?_, ?_⟩
    · rw [← List.range'_eq_map_range]
      exact List.nodup_range'
    · -- The new slots stand behind all that are in use.
      intro old used new fresh equal
      obtain ⟨offset, _, rfl⟩ := List.mem_map.mp fresh
      have bound := cut.tabulates.inUse old used
      omega
  · rw [grown]
    exact { cut.tabulates.foldl_push symbols with }

/-! ### Lookups -/

section Lookups

variable {index : SymbolIndex}

theorem symbols_eq_collect (index : SymbolIndex) : index.symbols = index.collect index.live := by
  simp only [symbols, collect, live, List.filterMap_flatMap]

/-- The symbols in the slots of a key are the symbols that have the key. -/
theorem collect_filter {κ : Type} [DecidableEq κ] (field : Symbol → κ) (slots : List Nat)
    (key : κ) :
    index.collect (slots.filter fun slot => index.slots[slot]?.map field = some key) =
      (index.collect slots).filter (field · = key) := by
  rw [collect, collect, List.filterMap_filter, List.filter_filterMap]
  apply congrArg (List.filterMap · slots)
  funext slot
  cases index.slots[slot]? with
  | none => simp
  | some symbol => by_cases same : field symbol = key <;> simp [Option.filter, same]

theorem length_collect (slots : List Nat) (inUse : ∀ slot ∈ slots, slot < index.slots.size) :
    (index.collect slots).length = slots.length := by
  induction slots with
  | nil => rfl
  | cons slot rest ih =>
    have used := inUse slot (.head _)
    rw [collect, List.filterMap_cons, Array.getElem?_eq_getElem used]
    exact congrArg (· + 1) (ih fun other member => inUse other (.tail _ member))

theorem lookup_entries (index : SymbolIndex) (file : FileId) :
    index.entries.lookup file = (index.byFile.lookup file).map index.collect := by
  rw [entries]
  induction index.byFile with
  | nil => rfl
  | cons entry rest ih =>
    obtain ⟨first, slots⟩ := entry
    rw [List.map_cons, List.lookup_cons, List.lookup_cons, ih]
    cases file == first <;> rfl

end Lookups

/-- Every lookup answers as a list of files with their symbols does. -/
structure AnswersAs (index : SymbolIndex) (entries : Entries) : Prop where
  symbols : index.symbols = entries.symbols
  named : ∀ name, index.named name = index.symbols.filter (·.name = name)
  valued : ∀ value, index.valued value = index.symbols.filter (·.value = value)
  ofKind : ∀ kind, index.ofKind kind = index.symbols.filter (·.kind = kind)
  ofKindNamed : ∀ kind name, index.ofKindNamed kind name =
    index.symbols.filter fun symbol => symbol.kind = kind ∧ symbol.name = name
  namedIn : ∀ name path, index.namedIn name path =
    index.symbols.filter fun symbol => symbol.name = name ∧ symbol.path.text = path
  qualified : ∀ sectionType arch moduleType, index.qualified sectionType arch moduleType =
    index.symbols.filter (·.isMatch sectionType arch moduleType)
  inFile : ∀ file, index.inFile file = (entries.lookup file).getD []
  size : index.size = entries.symbols.length
  fileCount : index.fileCount = entries.length
  files : index.files = entries.map (·.1)

theorem IsExact.answersAs {index : SymbolIndex} (isExact : index.IsExact) :
    index.AnswersAs index.entries := by
  have named (name : String) : index.named name = index.symbols.filter (·.name = name) := by
    rw [SymbolIndex.named, isExact.tabulates.names.get, symbols_eq_collect, collect_filter]
  have symbols : index.symbols = index.entries.symbols := by
    simp only [SymbolIndex.symbols, Entries.symbols, entries, List.flatMap_map]
  constructor
  · exact symbols
  · exact named
  · intro value
    rw [valued, isExact.tabulates.values.get, symbols_eq_collect, collect_filter]
  · intro kind
    rw [ofKind, isExact.tabulates.kinds.get, symbols_eq_collect, collect_filter]
  · intro kind name
    rw [ofKindNamed, named, List.filter_filter]
    simp only [Bool.decide_and]
  · intro name path
    rw [namedIn, named, List.filter_filter]
    simp only [Bool.decide_and, Bool.and_comm]
  · intro sectionType arch moduleType
    rfl
  · intro file
    rw [inFile, lookup_entries]
    cases index.byFile.lookup file <;> rfl
  · rw [← symbols, symbols_eq_collect, length_collect _ isExact.tabulates.inUse]
    rfl
  · simp only [fileCount, entries, List.length_map]
  · simp only [files, entries, List.map_map, Function.comp_def]

/-! ### Changes -/

theorem IsExact.change {index : SymbolIndex} (isExact : index.IsExact) (change : Change) :
    (index.change change).IsExact := by
  cases change with
  | add file symbols => exact isExact.add file symbols
  | remove file => exact isExact.remove file

theorem entries_remove (index : SymbolIndex) (file : FileId) :
    (index.remove file).entries = index.entries.erase file := by
  have ⟨slots, byFile⟩ := index.remove_eq file
  simp only [entries, Entries.erase, collect, slots, byFile, List.filter_map, Function.comp_def]

theorem entries_add (index : SymbolIndex) (file : FileId) (symbols : List Symbol)
    (sound : index.IsSound) :
    (index.add file symbols).entries = index.entries.erase file ++ [(file, symbols)] := by
  rw [entries, add_byFile, List.map_append, ← entries_remove]
  simp only [collect, add_slots, List.map_cons, List.map_nil, collect_fresh]
  -- The slots of the other files hold what they held.
  apply congrArg (· ++ _)
  rw [entries, (index.remove_eq file).2]
  apply List.map_congr_left
  intro entry member
  have used := sound.inUse entry (List.mem_filter.mp member).1
  simp only [collect_used index.slots symbols entry.2 used, collect, (index.remove_eq file).1]

theorem entries_change (index : SymbolIndex) (change : Change) (sound : index.IsSound) :
    (index.change change).entries = index.entries.change change := by
  cases change with
  | add file symbols => exact entries_add index file symbols sound
  | remove file => exact entries_remove index file

theorem foldl_change (changes : List Change) (index : SymbolIndex) (isExact : index.IsExact) :
    (changes.foldl change index).IsExact ∧
      (changes.foldl change index).entries = changes.foldl Entries.change index.entries := by
  induction changes generalizing index with
  | nil => exact ⟨isExact, rfl⟩
  | cons first rest ih =>
    have ⟨kept, tracked⟩ := ih (index.change first) (isExact.change first)
    rw [entries_change index first isExact.sound] at tracked
    exact ⟨kept, tracked⟩

/-- After any changes an index answers as the list of files does after the same changes. -/
theorem answersAs_changes (changes : List Change) :
    (changes.foldl change empty).AnswersAs (changes.foldl Entries.change []) := by
  have ⟨isExact, tracked⟩ := foldl_change changes empty isExact_empty
  have answers := isExact.answersAs
  rw [tracked] at answers
  exact answers

end SymbolIndex

end FirmwareWorkspace
