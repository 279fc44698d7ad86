import FirmwareWorkspace.Proofs.Document.Order
import FirmwareWorkspace.Proofs.Library.Specificity
import FirmwareWorkspace.Proofs.Load.Contribution
import FirmwareWorkspace.Proofs.SymbolIndex.Lookup

/-!
# The order of overrides in files that include each other

The overrides of a component may stand in several files, which a block includes. They are
written in the order in which their lines are reached, but the index has them file by file,
and a file stands behind the files that it includes. The last override of the index is the
last one of the file that ended last among those with an override.

Main result: `Snapshot.resolve_absorbRoot` says what a root file that was just taken in
answers, and when that is the override that was written last.
-/
namespace FirmwareWorkspace

/-! ### Overrides of a journal -/

namespace Library

/-- An override of a class in a block of a component. -/
def IsOverride (className component : String) (symbol : Symbol) : Prop :=
  symbol.kind = .libraryClass ∧ symbol.name = className ∧ symbol.owner = some component

instance (className component : String) (symbol : Symbol) :
    Decidable (IsOverride className component symbol) :=
  inferInstanceAs (Decidable (_ ∧ _ ∧ _))

/-- The overrides that a journal tells, in the order in which their lines were reached. -/
def written (events : List ReadEvent) (className component : String) : List Symbol :=
  (symbolsOf events).filter (IsOverride className component ·)

/-- The overrides of an index are those among all its symbols. -/
theorem overrides_eq_filter (index : SymbolIndex) (isExact : index.IsExact) (className : String)
    (context : ConsumerContext) :
    overrides index className context =
      index.symbols.filter (IsOverride className context.component ·) := by
  rw [overrides, declarations, isExact.answersAs.ofKindNamed, List.filter_filter]
  apply List.filter_congr
  intro symbol _
  simp only [IsOverride, Bool.decide_and]
  grind

end Library

/-! ### The last one of several files -/

section Last

variable {order : List FileId} {symbols : List Symbol} {answer symbol : Symbol}

theorem idxOf_le_of_mem (front back : List FileId) (file other : FileId) (fresh : file ∉ front)
    (member : other ∈ front ∨ other = file) :
    (front ++ file :: back).idxOf other ≤ (front ++ file :: back).idxOf file := by
  have own : (front ++ file :: back).idxOf file = front.length := by
    rw [List.idxOf_append_of_notMem fresh, List.idxOf_cons_self, Nat.add_zero]
  rcases member with before | rfl
  · rw [own, List.idxOf_append_of_mem before]
    exact Nat.le_of_lt (List.idxOf_lt_length_of_mem before)
  · exact Nat.le_refl _

/-- The last symbol, file by file, is the last one of its file, and no symbol has a later file. -/
theorem getLast_flatMap_ownSymbols (nodup : order.Nodup)
    (listed : ∀ symbol ∈ symbols, symbol.file ∈ order)
    (last : (order.flatMap (ownSymbols symbols)).getLast? = some answer) :
    (ownSymbols symbols answer.file).getLast? = some answer ∧
      ∀ other ∈ symbols, order.idxOf other.file ≤ order.idxOf answer.file := by
  rw [List.getLast?_flatMap, List.findSome?_eq_some_iff] at last
  obtain ⟨later, file, earlier, split, found, none⟩ := last
  obtain ⟨_, own⟩ := List.mem_filter.mp (List.mem_of_getLast? found)
  obtain rfl : answer.file = file := of_decide_eq_true own
  refine ⟨found, ?_⟩
  intro other member
  obtain rfl : order = earlier.reverse ++ answer.file :: later.reverse := by
    rw [← List.reverse_reverse order, split, List.reverse_append, List.reverse_cons,
      List.append_assoc, List.singleton_append]
  have fresh : answer.file ∉ earlier.reverse := fun inside =>
    (List.nodup_append.mp nodup).2.2 _ inside _ (.head _) rfl
  apply idxOf_le_of_mem _ _ _ _ fresh
  -- Behind the file of the answer no file has a symbol.
  have apart : other.file ∉ later.reverse := by
    intro inside
    have empty := List.getLast?_eq_none_iff.mp (none _ (List.mem_reverse.mp inside))
    exact List.filter_eq_nil_iff.mp empty other member (decide_eq_true rfl)
  rcases List.mem_append.mp (listed other member) with before | member
  · exact .inl before
  · exact .inr ((List.mem_cons.mp member).resolve_right apart)

/-- The last symbol, file by file, is the last one of all exactly if no symbol has a later file. -/
theorem getLast_eq_iff (nodup : order.Nodup) (listed : ∀ symbol ∈ symbols, symbol.file ∈ order)
    (last : symbols.getLast? = some symbol)
    (found : (order.flatMap (ownSymbols symbols)).getLast? = some answer) :
    answer = symbol ↔ ∀ other ∈ symbols, order.idxOf other.file ≤ order.idxOf symbol.file := by
  have ⟨own, latest⟩ := getLast_flatMap_ownSymbols nodup listed found
  constructor
  · rintro rfl
    exact latest
  · intro bounded
    have member := List.mem_of_getLast? last
    have inside := (List.mem_filter.mp (List.mem_of_getLast? own)).1
    have same : answer.file = symbol.file :=
      (List.idxOf_inj (listed answer inside)).mp
        (Nat.le_antisymm (bounded answer inside) (latest symbol member))
    -- Both are the last one of the same file.
    obtain ⟨front, rfl⟩ := List.getLast?_eq_some_iff.mp last
    have single : ownSymbols [symbol] symbol.file = [symbol] := ownSymbols_of_owned (by simp)
    rw [same, ownSymbols_append, single] at own
    simpa using own.symm

/-- If there are symbols, then there is a last one file by file. -/
theorem exists_getLast_flatMap (listed : ∀ symbol ∈ symbols, symbol.file ∈ order)
    (last : symbols.getLast? = some symbol) :
    ∃ answer, (order.flatMap (ownSymbols symbols)).getLast? = some answer := by
  have inside := List.mem_of_getLast? last
  have member : symbol ∈ order.flatMap (ownSymbols symbols) :=
    List.mem_flatMap.mpr
      ⟨symbol.file, listed symbol inside, List.mem_filter.mpr ⟨inside, decide_eq_true rfl⟩⟩
  apply Option.ne_none_iff_exists'.mp
  intro none
  exact List.ne_nil_of_mem member (List.getLast?_eq_none_iff.mp none)

end Last

/-! ### Documents in the index -/

/-- Documents of distinct files go to the end of the index in their order. -/
theorem Snapshot.entries_foldl (documents : List Document) (snapshot : Snapshot)
    (isExact : snapshot.symbols.IsExact) (nodup : (documents.map (·.file)).Nodup) :
    (documents.foldl addDocument snapshot).symbols.IsExact ∧
      (documents.foldl addDocument snapshot).symbols.entries =
        snapshot.symbols.entries.filter (·.1 ∉ documents.map (·.file)) ++
          documents.map fun document => (document.file, document.symbols) := by
  induction documents generalizing snapshot with
  | nil => exact ⟨isExact, by simp⟩
  | cons document rest ih =>
    rw [List.map_cons, List.nodup_cons] at nodup
    have ⟨kept, listed⟩ := ih (snapshot.addDocument document) (isExact.add _ _) nodup.2
    refine ⟨kept, ?_⟩
    have added : (snapshot.addDocument document).symbols.entries =
      snapshot.symbols.entries.filter (·.1 ≠ document.file) ++
        [(document.file, document.symbols)] := SymbolIndex.entries_add _ _ _ isExact.sound
    rw [List.foldl_cons, listed, added, List.filter_append, List.filter_filter,
      List.filter_cons_of_pos (by simpa using nodup.1), List.filter_nil, List.append_assoc]
    simp [Bool.and_comm]

/-- The files of a unit go to the end of the index in the order in which they ended. -/
theorem Snapshot.entries_absorb (snapshot : Snapshot) (isExact : snapshot.symbols.IsExact)
    (events : List ReadEvent) (diagnostics : List Diagnostic)
    (unresolved : List UnresolvedVariable) :
    let index := (snapshot.absorb (recorded (passes events)) diagnostics unresolved).symbols
    index.IsExact ∧ index.entries =
      snapshot.symbols.entries.filter (·.1 ∉ endedFiles events) ++
        (endedFiles events).map fun file => (file, passedSymbols events file) := by
  have ⟨kept, listed⟩ := Snapshot.entries_foldl (recorded (passes events))
    (({ snapshot with diagnostics := snapshot.diagnostics ++ diagnostics } :
      Snapshot).noteUnresolved unresolved) isExact (nodup_recorded _)
  rw [files_recorded, symbols_recorded] at listed
  exact ⟨kept, listed⟩

/-! ### Root files -/

/-- The overrides of a unit stand behind what the index held before, file by file. -/
theorem Snapshot.overrides_absorb (config : Configuration) (system : FileSystem)
    (files : FileSet) (path : Path) (snapshot : Snapshot) (isExact : snapshot.symbols.IsExact)
    (diagnostics : List Diagnostic) (unresolved : List UnresolvedVariable) (className : String)
    (context : ConsumerContext) :
    let events := LoadUnit.journal config system files path
    ∃ earlier, Library.overrides
        (snapshot.absorb (recorded (passes events)) diagnostics unresolved).symbols className
        context =
      earlier ++ (endedFiles events).flatMap
        (ownSymbols (Library.written events className context.component)) := by
  intro events
  have ⟨kept, entries⟩ := snapshot.entries_absorb isExact events diagnostics unresolved
  have passed : passedSymbols events = ownSymbols (symbolsOf events) :=
    Reader.passedSymbols_journal _ _ _ _ _ _
  rw [Library.overrides_eq_filter _ kept, kept.answersAs.symbols, entries,
    SymbolIndex.Entries.symbols, List.flatMap_append, List.filter_append, List.flatMap_map, passed,
    filter_flatMap_ownSymbols]
  exact ⟨_, rfl⟩

/-- A root file that was just taken in answers with the last override of the file that ended
last among its files with an override. That is the override that was written last exactly if
no file with an override ended after the file of that one. -/
theorem Snapshot.resolve_absorbRoot (config : Configuration) (system : FileSystem)
    (snapshot : Snapshot) (changes : List SymbolIndex.Change)
    (built : snapshot.symbols = changes.foldl SymbolIndex.change .empty) (root : Path)
    (file : FileId) (reader : Reader)
    (returned : LoadUnit.read config system snapshot.files root = .ok (file, reader))
    (className : String) (context : ConsumerContext) (symbol : Symbol)
    (last : (Library.written (LoadUnit.journal config system snapshot.files root) className
      context.component).getLast? = some symbol) :
    let events := LoadUnit.journal config system snapshot.files root
    let index := (snapshot.absorbRoot root.normalize file reader).symbols
    let written := Library.written events className context.component
    (∃ answer, ((endedFiles events).flatMap (ownSymbols written)).getLast? = some answer ∧
      Library.resolve index className context = .found answer) ∧
    (Library.resolve index className context = .found symbol ↔
      ∀ other ∈ written,
        (endedFiles events).idxOf other.file ≤ (endedFiles events).idxOf symbol.file) := by
  intro events index written
  have documents : reader.documents = recorded (passes events) :=
    LoadUnit.documents_of_read _ _ _ _ _ _ returned
  have isExact := (SymbolIndex.foldl_change changes .empty SymbolIndex.isExact_empty).1
  rw [← built] at isExact
  -- Overrides from before the root stand in front, and the last one decides.
  obtain ⟨earlier, overrides⟩ := Snapshot.overrides_absorb config system snapshot.files root
    { snapshot with
      files := reader.files
      roots := snapshot.roots ++ [⟨root.normalize, file, reader.definitions, reader.pcds⟩] }
    isExact reader.diagnostics reader.resolver.unresolved className context
  have nodup : (endedFiles events).Nodup := Registry.nodup_addAllNew _ _ List.nodup_nil
  have listed : ∀ symbol ∈ written, symbol.file ∈ endedFiles events := fun symbol member =>
    Reader.file_mem_endedFiles _ _ _ _ _ _ symbol (List.mem_filter.mp member).1
  obtain ⟨answer, found⟩ := exists_getLast_flatMap listed last
  have resolved : Library.resolve index className context = .found answer := by
    apply Library.resolve_of_override
    rw [← documents] at overrides
    exact (congrArg List.getLast? overrides).trans (by rw [List.getLast?_append, found]; rfl)
  refine ⟨⟨answer, found, resolved⟩, ?_⟩
  rw [resolved, LibraryResolution.found.injEq]
  exact getLast_eq_iff nodup listed last found

/-! ### A block with an include -/

def splitConfig : Configuration :=
  { Configuration.initial with workspaceRoot := ⟨"/ws"⟩, roots := [⟨"P.dsc"⟩] }

/-- A platform with an override in a block and a later one in a file that the block includes. -/
def splitFiles : FileSystem :=
  .memory (.ofList [
    (⟨"/ws/P.dsc"⟩,
      "[Components]\nM.inf \x7b\n<LibraryClasses>\nL|A.inf\n!include X.inc\n\x7d\n"),
    (⟨"/ws/X.inc"⟩, "L|B.inf\n"),
    (⟨"/ws/M.inf"⟩, ""), (⟨"/ws/A.inf"⟩, ""), (⟨"/ws/B.inf"⟩, "")])

def splitJournal : List ReadEvent :=
  LoadUnit.journal splitConfig splitFiles .empty ⟨"/ws/P.dsc"⟩

/-- The override of the included file was written last, but it is not the answer. -/
theorem splitFiles_misses :
    ∃ file reader symbol,
      LoadUnit.read splitConfig splitFiles .empty ⟨"/ws/P.dsc"⟩ = .ok (file, reader) ∧
      (Library.written splitJournal "L" "/ws/M.inf").getLast? = some symbol ∧
      symbol.value = "B.inf" ∧
      Library.resolve ((Snapshot.new 1).absorbRoot (Path.normalize ⟨"/ws/P.dsc"⟩) file
        reader).symbols "L" ⟨"/ws/M.inf", "*", "*"⟩ ≠ .found symbol := by
  have last : (Library.written splitJournal "L" "/ws/M.inf").getLast?.any (fun symbol =>
      symbol.value = "B.inf" ∧ ∃ other ∈ Library.written splitJournal "L" "/ws/M.inf",
        (endedFiles splitJournal).idxOf symbol.file <
          (endedFiles splitJournal).idxOf other.file) = true := by
    decide +kernel
  cases returned : LoadUnit.read splitConfig splitFiles .empty ⟨"/ws/P.dsc"⟩ with
  | error failure =>
    have empty : splitJournal = [] := LoadUnit.journal_of_unreadable _ _ _ _ failure returned
    rw [empty] at last
    cases last
  | ok result =>
    obtain ⟨symbol, written, told⟩ := (Option.any_eq_true _ _).mp last
    obtain ⟨value, other, member, later⟩ := of_decide_eq_true told
    refine ⟨result.1, result.2, symbol, rfl, written, value, fun found => ?_⟩
    have ⟨_, answered⟩ := Snapshot.resolve_absorbRoot splitConfig splitFiles (.new 1) [] rfl
      ⟨"/ws/P.dsc"⟩ result.1 result.2 returned "L" ⟨"/ws/M.inf", "*", "*"⟩ symbol written
    exact absurd (answered.mp found other member) (Nat.not_le_of_lt later)

end FirmwareWorkspace
