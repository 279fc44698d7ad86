import FirmwareWorkspace.Proofs.Document.Provenance
import FirmwareWorkspace.Proofs.Load.Outcome
import FirmwareWorkspace.Proofs.Path.Normal
import FirmwareWorkspace.Proofs.Registry
import FirmwareWorkspace.Proofs.SymbolIndex.Entries

/-!
# What a load publishes of its units

The events of a load tell which units it read and in which order, so the journals of all
units can be replayed from them. Within one unit the passes over a file are merged, but a
unit replaces the documents of the units before it: for every file the snapshot holds the
passes of the last unit that passed over it, and nothing of the others.

Main result: `Workspace.load_isComplete_iff` gives the condition under which nothing
is lost. A definition that an include makes for one root and not for a later one does
not meet it.
-/
namespace FirmwareWorkspace

/-! ### The units of a load -/

def LoadEvent.unit? : LoadEvent → Option Path
  | rootProcessed path _ | moduleProcessed path => some path
  | started _ _ | finished _ _ _ _ _ | failed _ _ => none

/-- The units of a load in the order in which they were read. -/
def unitsOf (events : List LoadEvent) : List Path :=
  events.filterMap LoadEvent.unit?

namespace LoadUnit

/-- The journal of reading a file as a unit. -/
def journal (config : Configuration) (system : FileSystem) (files : FileSet) (path : Path) :
    List ReadEvent :=
  Reader.journal system (system.fileCount + 1) path none .initial (.new config.context files)

def filesAfter (config : Configuration) (system : FileSystem) (files : FileSet) (path : Path) :
    FileSet :=
  match read config system files path with
  | .ok (_, reader) => reader.files
  | .error _ => files

end LoadUnit

/-- The journals of units that are read one after the other. -/
def journals (config : Configuration) (system : FileSystem) (files : FileSet) :
    List Path → List (List ReadEvent)
  | [] => []
  | path :: rest =>
    LoadUnit.journal config system files path ::
      journals config system (LoadUnit.filesAfter config system files path) rest

theorem journals_append (config : Configuration) (system : FileSystem) (files : FileSet)
    (front back : List Path) :
    journals config system files (front ++ back) =
      journals config system files front ++
        journals config system (front.foldl (LoadUnit.filesAfter config system) files) back := by
  induction front generalizing files with
  | nil => rfl
  | cons path rest ih => exact congrArg (_ :: ·) (ih _)

/-- The last of some units that passes over a file. -/
def lastOver (units : List (List ReadEvent)) (file : FileId) : List ReadEvent :=
  (units.filter fun unit => !(passesOver unit file).isEmpty).getLast?.getD []

def lastPasses (units : List (List ReadEvent)) (file : FileId) : List FilePass :=
  passesOver (lastOver units file) file

theorem lastPasses_concat (units : List (List ReadEvent)) (unit : List ReadEvent) (file : FileId) :
    lastPasses (units ++ [unit]) file =
      if passesOver unit file = [] then lastPasses units file else passesOver unit file := by
  by_cases untouched : passesOver unit file = []
  · simp [lastPasses, lastOver, untouched]
  · simp [lastPasses, lastOver, untouched]

theorem passesOver_eq_nil (units : List (List ReadEvent)) (file : FileId)
    (untouched : lastPasses units file = []) (unit : List ReadEvent) (member : unit ∈ units) :
    passesOver unit file = [] := by
  rw [lastPasses, lastOver] at untouched
  cases last : (units.filter fun unit => !(passesOver unit file).isEmpty).getLast? with
  | none =>
    rw [List.getLast?_eq_none_iff, List.filter_eq_nil_iff] at last
    simpa using last unit member
  | some touching =>
    -- The filter keeps units with a pass over the file only.
    have kept := (List.mem_filter.mp (List.mem_of_getLast? last)).2
    rw [last, Option.getD_some] at untouched
    rw [untouched] at kept
    cases kept

/-! ### What a snapshot reflects -/

/-- The index of a snapshot holds the symbols of its documents. -/
structure Snapshot.IsIndexed (snapshot : Snapshot) : Prop where
  symbols : ∀ file, snapshot.symbols.inFile file =
    ((snapshot.document? file).map (·.symbols)).getD []
  sound : snapshot.symbols.IsSound

namespace Snapshot

theorem document_addDocument (snapshot : Snapshot) (document : Document) (file : FileId) :
    (snapshot.addDocument document).document? file =
      if document.file = file then some document else snapshot.document? file :=
  Registry.find_put Document.file document snapshot.documents file

theorem isIndexed_addDocument (snapshot : Snapshot) (document : Document)
    (indexed : snapshot.IsIndexed) : (snapshot.addDocument document).IsIndexed where
  symbols file := by
    rw [document_addDocument, addDocument, SymbolIndex.inFile_add _ _ _ _ indexed.sound]
    by_cases own : document.file = file
    · rw [if_pos own, if_pos own.symm]
      rfl
    · rw [if_neg own, if_neg fun equal => own equal.symm]
      exact indexed.symbols file
  sound := SymbolIndex.isSound_add _ _ _ indexed.sound

theorem isIndexed_foldl (documents : List Document) (snapshot : Snapshot)
    (indexed : snapshot.IsIndexed) : (documents.foldl addDocument snapshot).IsIndexed := by
  induction documents generalizing snapshot with
  | nil => exact indexed
  | cons document rest ih => exact ih _ (isIndexed_addDocument snapshot document indexed)

/-- Documents of distinct files replace the earlier documents of these files. -/
theorem document_foldl (documents : List Document) (snapshot : Snapshot) (file : FileId)
    (nodup : (documents.map (·.file)).Nodup) :
    (documents.foldl addDocument snapshot).document? file =
      (documents.find? (·.file = file)).or (snapshot.document? file) := by
  induction documents generalizing snapshot with
  | nil => rfl
  | cons document rest ih =>
    rw [List.map_cons, List.nodup_cons] at nodup
    rw [List.foldl_cons, ih _ nodup.2, document_addDocument, List.find?_cons]
    by_cases own : document.file = file
    · -- The files are distinct, so nothing later replaces the document.
      have absent : rest.find? (·.file = file) = none := by
        refine List.find?_eq_none.mpr fun other member same => nodup.1 ?_
        rw [own, ← of_decide_eq_true same]
        exact List.mem_map_of_mem member
      simp [own, absent]
    · simp [own]

/-- Slots are filled by documents. -/
theorem mem_slots_foldl (documents : List Document) (snapshot : Snapshot) (symbol : Symbol)
    (held : symbol ∈ (documents.foldl addDocument snapshot).symbols.slots) :
    symbol ∈ snapshot.symbols.slots ∨ ∃ document ∈ documents, symbol ∈ document.symbols := by
  induction documents generalizing snapshot with
  | nil => exact .inl held
  | cons document rest ih =>
    rcases ih _ held with before | ⟨other, member, inside⟩
    · rw [addDocument, SymbolIndex.add_slots, Array.mem_append] at before
      rcases before with old | new
      · exact .inl old
      · exact .inr ⟨document, .head _, List.mem_toArray.mp new⟩
    · exact .inr ⟨other, .tail _ member, inside⟩

end Snapshot

/-- A snapshot holds, for every file, the passes of the last unit over it, and never held
anything else than symbols of passes. -/
structure Reflects (units : List (List ReadEvent)) (snapshot : Snapshot) : Prop where
  documents : ∀ file, snapshot.document? file = documentOf (lastPasses units file)
  indexed : snapshot.IsIndexed
  slots : ∀ symbol ∈ snapshot.symbols.slots, ∃ unit ∈ units, ∃ pass ∈ passes unit,
    symbol ∈ pass.symbols

namespace Reflects

theorem new (generation : Nat) : Reflects [] (.new generation) where
  documents _ := rfl
  indexed := ⟨fun _ => rfl, SymbolIndex.isSound_empty⟩
  slots _ member := nomatch member

-- The other fields of a snapshot do not matter.
theorem congr (units : List (List ReadEvent)) (snapshot other : Snapshot)
    (reflects : Reflects units snapshot) (symbols : other.symbols = snapshot.symbols)
    (documents : other.documents = snapshot.documents) : Reflects units other := by
  have found (file : FileId) : other.document? file = snapshot.document? file := by
    rw [Snapshot.document?, Snapshot.document?, documents]
  constructor
  · exact fun file => (found file).trans (reflects.documents file)
  · exact ⟨fun file => by rw [symbols, found, reflects.indexed.symbols],
      symbols ▸ reflects.indexed.sound⟩
  · rw [symbols]
    exact reflects.slots

theorem absorb (units : List (List ReadEvent)) (unit : List ReadEvent) (snapshot : Snapshot)
    (diagnostics : List Diagnostic) (unresolved : List UnresolvedVariable)
    (reflects : Reflects units snapshot) :
    Reflects (units ++ [unit])
      (snapshot.absorb (recorded (passes unit)) diagnostics unresolved) := by
  have begun : Reflects units
      (({ snapshot with diagnostics := snapshot.diagnostics ++ diagnostics } :
        Snapshot).noteUnresolved unresolved) := reflects.congr _ _ _ rfl rfl
  constructor
  · intro file
    rw [Snapshot.absorb, Snapshot.document_foldl _ _ _ (nodup_recorded _), begun.documents,
      find_recorded, lastPasses_concat]
    change (documentOf (passesOver unit file)).or _ = _
    by_cases untouched : passesOver unit file = []
    · rw [if_pos untouched, untouched]
      rfl
    · -- The unit has a document for the file, and it hides the one before.
      rw [if_neg untouched]
      cases given : documentOf (passesOver unit file) with
      | none => exact absurd ((documentOf_eq_none _).mp given) untouched
      | some document => rfl
  · exact Snapshot.isIndexed_foldl _ _ begun.indexed
  · intro symbol held
    rcases Snapshot.mem_slots_foldl _ _ symbol held with old | ⟨document, member, inside⟩
    · obtain ⟨earlier, listed, passed⟩ := begun.slots symbol old
      exact ⟨earlier, List.mem_append_left _ listed, passed⟩
    · exact ⟨unit, List.mem_append_right _ (.head _),
        mem_pass_of_recorded _ document member symbol inside⟩

theorem skip (units : List (List ReadEvent)) (snapshot : Snapshot)
    (reflects : Reflects units snapshot) : Reflects (units ++ [[]]) snapshot where
  documents file := by
    have untouched : passesOver [] file = [] := rfl
    rw [lastPasses_concat, if_pos untouched]
    exact reflects.documents file
  indexed := reflects.indexed
  slots symbol held := by
    obtain ⟨unit, listed, passed⟩ := reflects.slots symbol held
    exact ⟨unit, List.mem_append_left _ listed, passed⟩

end Reflects

/-! ### Reading units -/

namespace LoadUnit

variable (config : Configuration) (system : FileSystem) (files : FileSet) (path : Path)

theorem documents_of_read (file : FileId) (reader : Reader)
    (returned : read config system files path = .ok (file, reader)) :
    reader.documents = recorded (passes (journal config system files path)) := by
  unfold read Reader.read at returned
  split at returned
  · cases returned
  next after entered =>
    cases returned
    exact Reader.readFile_documents _ _ _ _ _ _ _ _ _ entered

theorem journal_of_unreadable (failure : ReadFailure)
    (failed : read config system files path = .error failure) :
    journal config system files path = [] := by
  unfold read Reader.read at failed
  split at failed
  next entered =>
    rcases readable_or_blocked system (system.fileCount + 1) path.normalize with
      ⟨levels, text, deep, readable⟩ | blocked
    · rw [deep, Reader.readFile_succ _ _ _ _ _ _ _ readable] at entered
      cases entered
    · exact Reader.journal_unreadable _ _ _ _ _ _ blocked
  · cases failed

theorem read_normalize :
    read config system files path.normalize = read config system files path := by
  simp only [read, Reader.read, Reader.readFile, Path.normalize_normalize]

theorem journal_normalize :
    journal config system files path.normalize = journal config system files path := by
  simp only [journal, Reader.journal, Path.normalize_normalize]

theorem filesAfter_normalize :
    filesAfter config system files path.normalize = filesAfter config system files path := by
  simp only [filesAfter, read_normalize]

end LoadUnit

/-- A way of taking in units that replaces the documents of their files. -/
structure Absorbs (absorb : Snapshot → LoadUnit → Snapshot) : Prop where
  files : ∀ snapshot unit, (absorb snapshot unit).files = snapshot.files
  reflects : ∀ units journal snapshot unit, unit.documents = recorded (passes journal) →
    Reflects units snapshot → Reflects (units ++ [journal]) (absorb snapshot unit)

/-- What neither documents nor problems change is not changed by taking them in. -/
theorem view_absorb {β : Type} (view : Snapshot → β)
    (kept : ∀ snapshot symbols documents diagnostics unresolved,
      view { snapshot with
        symbols := symbols, documents := documents, diagnostics := diagnostics,
        unresolved := unresolved } = view snapshot)
    (snapshot : Snapshot) (documents : List Document) (diagnostics : List Diagnostic)
    (unresolved : List UnresolvedVariable) :
    view (snapshot.absorb documents diagnostics unresolved) = view snapshot := by
  have folded (start : Snapshot) : view (documents.foldl Snapshot.addDocument start) =
      view start := by
    induction documents generalizing start with
    | nil => rfl
    | cons document rest ih =>
      exact (ih _).trans (kept start _ _ start.diagnostics start.unresolved)
  exact (folded _).trans (kept snapshot snapshot.symbols snapshot.documents _ _)

theorem files_absorb (snapshot : Snapshot) (documents : List Document)
    (diagnostics : List Diagnostic) (unresolved : List UnresolvedVariable) :
    (snapshot.absorb documents diagnostics unresolved).files = snapshot.files :=
  view_absorb (·.files) (fun _ _ _ _ _ => rfl) _ _ _ _

theorem absorbs_module : Absorbs Snapshot.absorbModule where
  files _ _ := files_absorb _ _ _ _
  reflects units journal snapshot unit documents reflects := by
    rw [Snapshot.absorbModule, documents]
    exact Reflects.absorb _ _ _ _ _ (reflects.congr _ _ _ rfl rfl)

theorem absorbs_package : Absorbs Snapshot.absorbPackage where
  files _ _ := files_absorb _ _ _ _
  reflects units journal snapshot unit documents reflects := by
    rw [Snapshot.absorbPackage, documents]
    exact Reflects.absorb _ _ _ _ _ (reflects.congr _ _ _ rfl rfl)

/-- What no unit changes is not changed by several. -/
theorem view_foldl {β : Type} (view : Snapshot → β) (absorb : Snapshot → LoadUnit → Snapshot)
    (kept : ∀ snapshot unit, view (absorb snapshot unit) = view snapshot) (units : List LoadUnit)
    (snapshot : Snapshot) : view (units.foldl absorb snapshot) = view snapshot := by
  induction units generalizing snapshot with
  | nil => rfl
  | cons unit rest ih => exact (ih _).trans (kept snapshot unit)

theorem Absorbs.files_foldl {absorb : Snapshot → LoadUnit → Snapshot} (absorbs : Absorbs absorb)
    (units : List LoadUnit) (snapshot : Snapshot) :
    (units.foldl absorb snapshot).files = snapshot.files :=
  view_foldl (·.files) absorb absorbs.files units snapshot

/-- Reading units one after the other keeps a snapshot that takes them in true to them. -/
theorem loadUnits_reflects (config : Configuration) (system : FileSystem)
    (cancellation : Cancellation) (absorb : Snapshot → LoadUnit → Snapshot)
    (absorbs : Absorbs absorb) (notifications : Nat) (files : FileSet) (paths : List Path)
    (units : List (List ReadEvent)) (snapshot : Snapshot) (reflects : Reflects units snapshot) :
    let loaded := loadUnits config system cancellation notifications files paths
    loaded.files = loaded.started.foldl (LoadUnit.filesAfter config system) files ∧
      Reflects (units ++ journals config system files loaded.started)
        (loaded.units.foldl absorb snapshot) := by
  induction paths generalizing notifications files units snapshot with
  | nil => exact ⟨rfl, by simpa [loadUnits, journals] using reflects⟩
  | cons path rest ih =>
    rw [loadUnits]
    split
    -- Cancelled: the remaining units are not started.
    · exact ⟨rfl, by simpa [journals] using reflects⟩
    · split
      next failure failed =>
        -- The unit is told of but left out; its journal is empty.
        have empty := LoadUnit.journal_of_unreadable config system files path failure failed
        have same : LoadUnit.filesAfter config system files path = files := by
          rw [LoadUnit.filesAfter, failed]
        have ⟨numbered, kept⟩ := ih (notifications + 1) files (units ++ [[]]) snapshot
          (reflects.skip units snapshot)
        refine ⟨?_, ?_⟩
        · rw [List.foldl_cons, same]
          exact numbered
        · rw [journals, empty, same, List.append_cons]
          exact kept
      next file reader returned =>
        have next : LoadUnit.filesAfter config system files path = reader.files := by
          rw [LoadUnit.filesAfter, returned]
        have ⟨numbered, kept⟩ := ih (notifications + 1) reader.files
          (units ++ [LoadUnit.journal config system files path])
          (absorb snapshot (.ofReader path file reader))
          (absorbs.reflects units _ snapshot _
            (LoadUnit.documents_of_read config system files path file reader returned) reflects)
        refine ⟨?_, ?_⟩
        · rw [List.foldl_cons, next]
          exact numbered
        · rw [journals, next, List.append_cons]
          exact kept

/-! ### A whole load -/

/-- The events of a wave tell of the units that it started. -/
theorem LoadProgress.unitsOf_loadWave (progress : LoadProgress) (source : LoadSource)
    (paths : List Path) (absorb : Snapshot → LoadUnit → Snapshot) :
    unitsOf (progress.loadWave source paths absorb).events =
      unitsOf progress.events ++ (loadUnits source.config source.system source.cancellation
        progress.events.length progress.snapshot.files paths).started := by
  rw [loadWave, unitsOf, List.filterMap_append, List.filterMap_map]
  exact congrArg (_ ++ ·) List.filterMap_some

/-- What a load has done is true to the units that its events tell of. -/
structure IsTrue (source : LoadSource) (progress : LoadProgress) : Prop where
  files : progress.snapshot.files =
    (unitsOf progress.events).foldl (LoadUnit.filesAfter source.config source.system) .empty
  reflects : Reflects (journals source.config source.system .empty (unitsOf progress.events))
    progress.snapshot

namespace IsTrue

variable {source : LoadSource} {progress : LoadProgress}

-- The other fields of the progress and of its snapshot do not matter.
theorem congr (isTrue : IsTrue source progress) (other : LoadProgress)
    (events : unitsOf other.events = unitsOf progress.events)
    (files : other.snapshot.files = progress.snapshot.files)
    (symbols : other.snapshot.symbols = progress.snapshot.symbols)
    (documents : other.snapshot.documents = progress.snapshot.documents) :
    IsTrue source other where
  files := by rw [files, events, isTrue.files]
  reflects := by
    rw [events]
    exact isTrue.reflects.congr _ _ _ symbols documents

theorem absorbRoot (isTrue : IsTrue source progress) (root : Path) (file : FileId)
    (reader : Reader)
    (returned : LoadUnit.read source.config source.system progress.snapshot.files root =
      .ok (file, reader)) :
    IsTrue source (progress.absorbRoot root file reader) := by
  have told : unitsOf (progress.absorbRoot root file reader).events =
      unitsOf progress.events ++ [root.normalize] := List.filterMap_append
  have numbered : (progress.absorbRoot root file reader).snapshot.files = reader.files :=
    files_absorb _ _ _ _
  constructor
  -- The event names the normal form of the root, which is read like the root itself.
  · rw [told, List.foldl_append, ← isTrue.files, numbered, List.foldl_cons, List.foldl_nil,
      LoadUnit.filesAfter_normalize, LoadUnit.filesAfter, returned]
  · rw [told, journals_append, ← isTrue.files, journals, LoadUnit.journal_normalize, journals]
    have documents := LoadUnit.documents_of_read _ _ _ _ _ _ returned
    simp only [LoadProgress.absorbRoot, Snapshot.absorbRoot, documents]
    exact Reflects.absorb _ _ _ _ _ (isTrue.reflects.congr _ _ _ rfl rfl)

theorem loadWave (isTrue : IsTrue source progress) (paths : List Path)
    (absorb : Snapshot → LoadUnit → Snapshot) (absorbs : Absorbs absorb) :
    IsTrue source (progress.loadWave source paths absorb) := by
  have told := progress.unitsOf_loadWave source paths absorb
  -- A wave numbers its files first and takes in its units afterwards.
  let loaded := loadUnits source.config source.system source.cancellation progress.events.length
    progress.snapshot.files paths
  have ⟨numbered, reflects⟩ := loadUnits_reflects source.config source.system source.cancellation
    absorb absorbs progress.events.length progress.snapshot.files paths _
    { progress.snapshot with files := loaded.files } (isTrue.reflects.congr _ _ _ rfl rfl)
  constructor
  · rw [told, List.foldl_append, ← isTrue.files, LoadProgress.loadWave, absorbs.files_foldl]
    exact numbered
  · rw [told, journals_append, ← isTrue.files]
    exact reflects

theorem loadComponents (isTrue : IsTrue source progress) :
    IsTrue source (progress.loadComponents source).1 :=
  (isTrue.loadWave _ _ absorbs_module).congr _ rfl rfl rfl rfl

theorem loadLibraries (waves : Nat) (attempted : List Path) (isTrue : IsTrue source progress) :
    IsTrue source (LoadProgress.loadLibraries source waves attempted progress) := by
  induction waves generalizing attempted progress with
  | zero => exact isTrue
  | succ waves ih =>
    rw [LoadProgress.loadLibraries]
    split
    · exact isTrue.congr _ rfl rfl rfl rfl
    · dsimp only
      split
      -- No library is left to load.
      · exact isTrue
      · exact ih _ (isTrue.loadWave _ _ absorbs_module)

theorem loadPackages (isTrue : IsTrue source progress) :
    IsTrue source (progress.loadPackages source) := by
  rw [LoadProgress.loadPackages]
  split
  · exact isTrue.congr _ rfl rfl rfl rfl
  · exact (isTrue.loadWave _ _ absorbs_package).congr _ rfl rfl rfl rfl

theorem loadModules (isTrue : IsTrue source progress) :
    IsTrue source (progress.loadModules source) := by
  have bound := (isTrue.loadComponents.loadLibraries (source.system.pathCount + 1)
    (progress.loadComponents source).2).congr (LoadProgress.bindLibraries _) rfl rfl rfl rfl
  exact bound.loadPackages

end IsTrue

theorem loadRoots_isTrue (source : LoadSource) (progress : LoadProgress) (roots : List Path)
    (isTrue : IsTrue source progress) :
    IsTrue source (progress.loadRoots source roots).progress :=
  progress.loadRoots_keeps source
    (fun _ root file reader returned isTrue => isTrue.absorbRoot root file reader returned)
    roots isTrue

theorem finished_reflects (source : LoadSource) (progress : LoadProgress) (snapshot : Snapshot)
    (isTrue : IsTrue source progress)
    (published : (LoadReport.finished progress).result = .ok snapshot) :
    Reflects (journals source.config source.system .empty
      (unitsOf (LoadReport.finished progress).events)) snapshot := by
  cases published
  have told : unitsOf (LoadReport.finished progress).events = unitsOf progress.events := by
    rw [LoadReport.finished, unitsOf, List.filterMap_append]
    exact List.append_nil _
  rw [told]
  exact isTrue.reflects

/-- A snapshot that a load publishes is true to the units that its events tell of. -/
theorem load_reflects (workspace : Workspace) (system : FileSystem) (cancellation : Cancellation)
    (snapshot : Snapshot)
    (published : (workspace.load system cancellation).1.result = .ok snapshot) :
    Reflects (journals workspace.config system .empty
      (unitsOf (workspace.load system cancellation).1.events)) snapshot := by
  have built := workspace.load_of_published system cancellation snapshot published
  rw [built] at published ⊢
  let source : LoadSource := ⟨workspace.config, system, cancellation⟩
  have begun : IsTrue source (.start (workspace.generation + 1) workspace.config.rootPaths) :=
    ⟨rfl, .new _⟩
  have rooted := loadRoots_isTrue source _ workspace.config.rootPaths begun
  rcases LoadReport.finished_of_published source _ _ snapshot published with
    ⟨progress, outcome, ends, rfl⟩ | ⟨progress, outcome, ends, rfl⟩
  · rw [outcome] at rooted
    rw [ends]
    exact finished_reflects source _ _ (rooted.congr _ rfl rfl rfl rfl) rfl
  · rw [outcome] at rooted
    rw [ends]
    exact finished_reflects source _ _ rooted.loadModules rfl

/-! ### Lost contributions -/

/-- No contribution of a unit is lost: the index holds every symbol that was emitted, and
a line counts as dead only if it was dead in every pass. -/
structure IsComplete (units : List (List ReadEvent)) (snapshot : Snapshot) : Prop where
  symbols : ∀ unit ∈ units, ∀ symbol, .emitted symbol ∈ unit → symbol ∈ snapshot.symbols.symbols
  inactive : ∀ file document, snapshot.document? file = some document →
    ∀ line ∈ document.inactiveLines, ∀ unit ∈ units, ∀ pass ∈ passesOver unit file,
      line ∈ pass.inactive

/-- The last unit over each file speaks for all units: it emits every symbol that any of
them emits for the file, and finds dead only what is dead in all their passes. -/
structure LastSpeaksForAll (units : List (List ReadEvent)) : Prop where
  symbols : ∀ unit ∈ units, ∀ symbol, .emitted symbol ∈ unit →
    .emitted symbol ∈ lastOver units symbol.file
  inactive : ∀ file line, (∀ pass ∈ lastPasses units file, line ∈ pass.inactive) →
    ∀ unit ∈ units, ∀ pass ∈ passesOver unit file, line ∈ pass.inactive

theorem mem_journals (config : Configuration) (system : FileSystem) (files : FileSet)
    (paths : List Path) (unit : List ReadEvent)
    (member : unit ∈ journals config system files paths) :
    ∃ files path, unit = LoadUnit.journal config system files path := by
  induction paths generalizing files with
  | nil => cases member
  | cons path rest ih =>
    rcases List.mem_cons.mp member with rfl | member
    · exact ⟨files, path, rfl⟩
    · exact ih _ member

/-- A snapshot holds sound symbols only. -/
theorem Reflects.isSound (config : Configuration) (system : FileSystem) (files : FileSet)
    (paths : List Path) (snapshot : Snapshot) (symbol : Symbol)
    (reflects : Reflects (journals config system files paths) snapshot)
    (held : symbol ∈ snapshot.symbols.slots) :
    symbol.IsSound := by
  obtain ⟨unit, listed, pass, passed, inside⟩ := reflects.slots symbol held
  obtain ⟨numbered, path, rfl⟩ := mem_journals config system files paths unit listed
  exact Reader.isSound_of_mem_passes _ _ _ _ _ _ SectionState.isSound_initial pass passed symbol
    inside

theorem lastOver_mem_or_nil (units : List (List ReadEvent)) (file : FileId) :
    lastOver units file ∈ units ∨ lastOver units file = [] := by
  rw [lastOver]
  cases last : (units.filter fun unit => !(passesOver unit file).isEmpty).getLast? with
  | none => exact .inr rfl
  | some unit => exact .inl (List.mem_filter.mp (List.mem_of_getLast? last)).1

/-- The last unit over a file emits the symbols that its passes over files hold. -/
theorem emitted_mem_lastOver_iff (config : Configuration) (system : FileSystem) (files : FileSet)
    (paths : List Path) (symbol : Symbol) (file : FileId) :
    .emitted symbol ∈ lastOver (journals config system files paths) file ∧ symbol.file = file ↔
      ∃ pass ∈ lastPasses (journals config system files paths) file, symbol ∈ pass.symbols := by
  rcases lastOver_mem_or_nil (journals config system files paths) file with member | empty
  · obtain ⟨_, path, given⟩ := mem_journals config system files paths _ member
    simp only [lastPasses, given, LoadUnit.journal, Reader.emitted_mem_journal_iff,
      mem_passesOver, ← mem_passes]
    constructor
    · rintro ⟨⟨pass, passed, inside⟩, own⟩
      -- A pass holds symbols of its own file only.
      have same := Reader.file_of_mem_passes _ _ _ _ _ _ pass symbol passed inside
      exact ⟨pass, ⟨passed, same.symm.trans own⟩, inside⟩
    · rintro ⟨pass, ⟨passed, own⟩, inside⟩
      have same := Reader.file_of_mem_passes _ _ _ _ _ _ pass symbol passed inside
      exact ⟨⟨pass, passed, inside⟩, same.trans own⟩
  · simp [lastPasses, empty, passesOver, passes]

/-- A snapshot holds the symbols that the last unit over their file emitted. -/
theorem Reflects.mem_symbols_iff (config : Configuration) (system : FileSystem) (files : FileSet)
    (paths : List Path) (snapshot : Snapshot) (symbol : Symbol)
    (reflects : Reflects (journals config system files paths) snapshot) :
    symbol ∈ snapshot.symbols.symbols ↔
      .emitted symbol ∈ lastOver (journals config system files paths) symbol.file := by
  have held (file : FileId) : symbol ∈ snapshot.symbols.inFile file ↔
      .emitted symbol ∈ lastOver (journals config system files paths) file ∧
        symbol.file = file := by
    rw [emitted_mem_lastOver_iff, reflects.indexed.symbols, reflects.documents]
    cases given : documentOf (lastPasses (journals config system files paths) file) with
    | none => simp [(documentOf_eq_none _).mp given]
    | some document =>
      rw [Option.map_some, Option.getD_some, (documentOf_eq_some _ _ given).1, List.mem_flatMap]
  rw [SymbolIndex.mem_symbols_iff _ _ reflects.indexed.sound]
  simp only [held]
  constructor
  · rintro ⟨file, emitted, rfl⟩
    exact emitted
  · exact fun emitted => ⟨symbol.file, emitted, rfl⟩

theorem Reflects.mem_inactive_iff (units : List (List ReadEvent)) (snapshot : Snapshot)
    (file : FileId) (document : Document) (line : Nat) (reflects : Reflects units snapshot)
    (found : snapshot.document? file = some document) :
    line ∈ document.inactiveLines ↔ ∀ pass ∈ lastPasses units file, line ∈ pass.inactive := by
  rw [reflects.documents] at found
  exact (documentOf_eq_some _ _ found).2 line

/-- A load loses nothing exactly if the last unit over each file speaks for all units. -/
theorem Workspace.load_isComplete_iff (workspace : Workspace) (system : FileSystem)
    (cancellation : Cancellation) (snapshot : Snapshot)
    (published : (workspace.load system cancellation).1.result = .ok snapshot) :
    let units := journals workspace.config system .empty
      (unitsOf (workspace.load system cancellation).1.events)
    IsComplete units snapshot ↔ LastSpeaksForAll units := by
  intro units
  have reflects : Reflects units snapshot :=
    load_reflects workspace system cancellation snapshot published
  have held (symbol : Symbol) : symbol ∈ snapshot.symbols.symbols ↔
      .emitted symbol ∈ lastOver units symbol.file := reflects.mem_symbols_iff _ _ _ _ _ symbol
  constructor
  · intro complete
    refine ⟨fun unit member symbol emitted => ?_, fun file line dead unit member pass through => ?_⟩
    · exact (held symbol).mp (complete.symbols unit member symbol emitted)
    · cases found : snapshot.document? file with
      | none =>
        -- Without a document there was no pass through the file.
        rw [reflects.documents, documentOf_eq_none] at found
        rw [passesOver_eq_nil units file found unit member] at through
        cases through
      | some document =>
        have counted := (reflects.mem_inactive_iff _ _ file document line found).mpr dead
        exact complete.inactive file document found line counted unit member pass through
  · intro speaks
    refine ⟨fun unit member symbol emitted => ?_, fun file document found line counted => ?_⟩
    · exact (held symbol).mpr (speaks.symbols unit member symbol emitted)
    · exact speaks.inactive file line
        ((reflects.mem_inactive_iff _ _ file document line found).mp counted)

/-- Two platforms that include the same file, of which only the first defines its macro. -/
def twoPlatforms : Workspace :=
  .new { Configuration.initial with workspaceRoot := ⟨"/ws"⟩, roots := [⟨"A.dsc"⟩, ⟨"B.dsc"⟩] }

def sharedInclude : FileSystem :=
  .memory (.ofList [(⟨"/ws/A.dsc"⟩, "DEFINE X = 1\n!include C.inc\n"),
    (⟨"/ws/B.dsc"⟩, "!include C.inc\n"), (⟨"/ws/C.inc"⟩, "!ifdef X\nDEFINE Y = 2\n!endif\n")])

/-- The definition that the shared file makes for the first platform is lost. -/
theorem sharedInclude_not_isComplete :
    ∃ snapshot, (twoPlatforms.load sharedInclude .never).1.result = .ok snapshot ∧
      ¬IsComplete (journals twoPlatforms.config sharedInclude .empty
        (unitsOf (twoPlatforms.load sharedInclude .never).1.events)) snapshot := by
  -- The last unit over the shared file is the second platform, which emits nothing there.
  have ⟨loaded, lost⟩ : (twoPlatforms.load sharedInclude .never).1.result.toOption.isSome = true ∧
      ∃ unit ∈ journals twoPlatforms.config sharedInclude .empty
        (unitsOf (twoPlatforms.load sharedInclude .never).1.events),
      ∃ symbol ∈ (passes unit).flatMap (·.symbols), .emitted symbol ∈ unit ∧
        .emitted symbol ∉ lastOver (journals twoPlatforms.config sharedInclude .empty
          (unitsOf (twoPlatforms.load sharedInclude .never).1.events)) symbol.file := by
    decide +kernel
  cases published : (twoPlatforms.load sharedInclude .never).1.result with
  | error failure =>
    rw [published] at loaded
    cases loaded
  | ok snapshot =>
    refine ⟨snapshot, rfl, fun complete => ?_⟩
    have speaks := (Workspace.load_isComplete_iff _ _ _ snapshot published).mp complete
    obtain ⟨unit, member, symbol, _, emitted, unheard⟩ := lost
    exact unheard (speaks.symbols unit member symbol emitted)

end FirmwareWorkspace
