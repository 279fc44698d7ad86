import FirmwareWorkspace.Proofs.Document.Order
import FirmwareWorkspace.Proofs.Document.Visits
import FirmwareWorkspace.Proofs.Load.Fixpoint
import Mathlib.Data.List.Basic

/-!
# Reports on library bindings

A binding that failed is reported at a line that uses its class, and not at all if no such
line is found. The line is looked up in one file only, which is taken to be the file of the
consumer: among the files of its unit that hold a symbol, the one that ended first. An
included file ends before the module's own file, so a module whose first include holds
symbols is looked up in the wrong file. Moreover that file is searched as the unit that
passed over it last left it.

Main result: `Workspace.load_reports` says which problems with libraries a load reports, and
for which failed bindings there is none.
-/
namespace FirmwareWorkspace

/-! ### Problems that readers report -/

/-- A problem with what a library class is bound to. -/
def Problem.isAboutLibrary : Problem → Bool
  | unresolvedLibrary _ _ _ | ambiguousLibrary _ _ => true
  | _ => false

theorem Problem.not_isAboutLibrary_of_isRoutine (problem : Problem)
    (routine : problem.isRoutine = true) : problem.isAboutLibrary = false := by
  cases problem with
  | unresolvedLibrary | ambiguousLibrary => cases routine
  | _ => rfl

def libraryProblems (diagnostics : List Diagnostic) : List Diagnostic :=
  diagnostics.filter (·.problem.isAboutLibrary)

@[simp] theorem libraryProblems_append (front back : List Diagnostic) :
    libraryProblems (front ++ back) = libraryProblems front ++ libraryProblems back :=
  List.filter_append ..

theorem PassState.survives_libraryProblems (told : List Diagnostic) :
    Survives fun state => libraryProblems state.reader.diagnostics = told where
  diagnostic state diagnostic _ routine kept := by
    have other := diagnostic.problem.not_isAboutLibrary_of_isRoutine routine
    simp [Reader.report, libraryProblems, other] at kept ⊢
    exact kept
  tables _ _ same kept := same ▸ kept
  place _ _ _ kept := kept
  symbol _ _ _ kept := kept
  stack _ _ kept := kept
  inclusion _ _ kept := kept
  inactive _ _ kept := kept

/-- Reading files reports nothing about libraries. -/
theorem replays_libraryProblems (system : FileSystem) :
    Replays system (fun reader => libraryProblems reader.diagnostics) fun told _ => told where
  step state line raw _ :=
    (PassState.survives_libraryProblems _).step state system line raw rfl
  entry state line raw entry enters :=
    (PassState.survives_libraryProblems _).entry enters rfl
  shut state line reference :=
    (PassState.survives_libraryProblems _).report state line _ rfl rfl
  opening _ _ _ _ := rfl
  finish state fatal := by
    have ending : libraryProblems (state.ending fatal).toList = [] := by
      unfold PassState.ending
      split <;> rfl
    rw [Reader.finish_diagnostics, libraryProblems_append, ending, List.append_nil]

theorem LoadUnit.libraryProblems_of_read (config : Configuration) (system : FileSystem)
    (files : FileSet) (path : Path) (file : FileId) (reader : Reader)
    (returned : read config system files path = .ok (file, reader)) :
    libraryProblems reader.diagnostics = [] := by
  unfold read Reader.read at returned
  split at returned
  · cases returned
  next after entered =>
    cases returned
    have kept := (replays_libraryProblems system).readFile _ _ _ _ _ _ _ _ entered
    rw [List.foldl_fixed] at kept
    exact kept

/-! ### Modules of units -/

/-- The symbols of a unit as its module is read off them. -/
def unitSymbols (events : List ReadEvent) : List Symbol :=
  (recorded (passes events)).flatMap (·.symbols)

/-- The file that a unit's module is taken to have: the first one to end that has a symbol. -/
def moduleFile? (events : List ReadEvent) : Option FileId :=
  (endedFiles events).find? fun file => (symbolsOf events).any (·.file = file)

/-- A line that uses a library class. -/
def Symbol.IsUsage (symbol : Symbol) (className : String) : Prop :=
  symbol.kind = .libraryClassUsage ∧ symbol.name = className

instance (symbol : Symbol) (className : String) : Decidable (symbol.IsUsage className) :=
  inferInstanceAs (Decidable (_ ∧ _))

namespace ModuleInfo

theorem file_addSymbol (info : ModuleInfo) (symbol : Symbol) :
    (info.addSymbol symbol).file = info.file.or (some symbol.file) := by
  unfold addSymbol
  dsimp only
  split
  · unfold define
    split <;> rfl
  all_goals rfl

theorem file_ofSymbols (path : Path) (symbols : List Symbol) :
    (ofSymbols path symbols).file = symbols.head?.map (·.file) := by
  have folded (info : ModuleInfo) :
      (symbols.foldl addSymbol info).file = info.file.or (symbols.head?.map (·.file)) := by
    induction symbols generalizing info with
    | nil => simp
    | cons symbol rest ih =>
      rw [List.foldl_cons, ih, file_addSymbol]
      cases info.file <;> rfl
  exact folded (empty path)

theorem libraryClasses_addSymbol (info : ModuleInfo) (symbol : Symbol) (className : String) :
    className ∈ (info.addSymbol symbol).libraryClasses ↔
      className ∈ info.libraryClasses ∨ symbol.IsUsage className := by
  have kept (other : symbol.kind ≠ .libraryClassUsage) :
      (info.addSymbol symbol).libraryClasses = info.libraryClasses := by
    unfold addSymbol
    dsimp only
    split
    · unfold define
      split <;> rfl
    next usage => exact absurd usage other
    all_goals rfl
  by_cases usage : symbol.kind = .libraryClassUsage
  · have added : (info.addSymbol symbol).libraryClasses =
        Registry.addAllNew (· == ·) info.libraryClasses [symbol.name] := by
      simp only [addSymbol, usage]
      rfl
    rw [added, Registry.mem_addAllNew_iff, List.mem_singleton, Symbol.IsUsage, eq_comm]
    simp only [usage, true_and]
  · rw [kept usage, Symbol.IsUsage]
    simp only [usage, false_and, or_false]

theorem mem_libraryClasses_ofSymbols (path : Path) (symbols : List Symbol) (className : String) :
    className ∈ (ofSymbols path symbols).libraryClasses ↔
      ∃ symbol ∈ symbols, symbol.IsUsage className := by
  have folded (info : ModuleInfo) : className ∈ (symbols.foldl addSymbol info).libraryClasses ↔
      className ∈ info.libraryClasses ∨ ∃ symbol ∈ symbols, symbol.IsUsage className := by
    induction symbols generalizing info with
    | nil => simp
    | cons symbol rest ih =>
      rw [List.foldl_cons, ih, libraryClasses_addSymbol]
      simp only [List.mem_cons, exists_eq_or_imp, or_assoc]
  exact (folded (empty path)).trans (or_iff_right List.not_mem_nil)

end ModuleInfo

namespace LoadUnit

variable (config : Configuration) (system : FileSystem) (files : FileSet) (path : Path)

theorem unitSymbols_journal :
    unitSymbols (journal config system files path) =
      (endedFiles (journal config system files path)).flatMap
        (ownSymbols (symbolsOf (journal config system files path))) := by
  have held := congrArg (List.flatMap (·.2)) (symbols_recorded (journal config system files path))
  rw [List.flatMap_map, List.flatMap_map, journal, Reader.passedSymbols_journal] at held
  exact held

/-- A unit's module has the symbols that were emitted while the unit was read. -/
theorem mem_unitSymbols_iff (symbol : Symbol) :
    symbol ∈ unitSymbols (journal config system files path) ↔
      .emitted symbol ∈ journal config system files path := by
  have emitted : symbol ∈ symbolsOf (journal config system files path) ↔
      .emitted symbol ∈ journal config system files path := mem_symbolsOf _ _
  rw [unitSymbols_journal, List.mem_flatMap, ← emitted]
  constructor
  · rintro ⟨_, _, own⟩
    exact (List.mem_filter.mp own).1
  · intro member
    exact ⟨symbol.file, Reader.file_mem_endedFiles _ _ _ _ _ _ symbol member,
      List.mem_filter.mpr ⟨member, decide_eq_true rfl⟩⟩

/-- The module of a unit has the file that the unit ended first among those with symbols. -/
theorem head_unitSymbols :
    (unitSymbols (journal config system files path)).head?.map (·.file) =
      moduleFile? (journal config system files path) := by
  rw [unitSymbols_journal, moduleFile?]
  induction endedFiles (journal config system files path) with
  | nil => rfl
  | cons file rest ih =>
    rw [List.flatMap_cons, List.find?_cons]
    cases own : ownSymbols (symbolsOf (journal config system files path)) file with
    | nil =>
      have none : (symbolsOf (journal config system files path)).any (·.file = file) = false := by
        simpa [ownSymbols] using own
      rw [none, List.nil_append, ih]
    | cons first others =>
      obtain ⟨member, same⟩ := List.mem_filter.mp (own ▸ List.mem_cons_self :
        first ∈ ownSymbols (symbolsOf (journal config system files path)) file)
      have some : (symbolsOf (journal config system files path)).any (·.file = file) = true :=
        List.any_eq_true.mpr ⟨first, member, same⟩
      rw [some]
      exact congrArg Option.some (of_decide_eq_true same)

end LoadUnit

/-! ### Units of a load -/

/-- A unit that was read, and the journal of its reading. -/
structure LoadUnit.IsRead (config : Configuration) (system : FileSystem)
    (journals : List (List ReadEvent)) (unit : LoadUnit) : Prop where
  normal : unit.path.normalize = unit.path
  journal : ∃ files, LoadUnit.journal config system files unit.path ∈ journals ∧
    unit.symbols = unitSymbols (LoadUnit.journal config system files unit.path)
  silent : libraryProblems unit.diagnostics = []

theorem LoadUnit.isRead_of_read (config : Configuration) (system : FileSystem) (files : FileSet)
    (path : Path) (file : FileId) (reader : Reader)
    (returned : LoadUnit.read config system files path = .ok (file, reader)) :
    IsRead config system [LoadUnit.journal config system files path]
      (.ofReader path file reader) where
  normal := Path.normalize_normalize path
  journal := by
    refine ⟨files, ?_⟩
    rw [ofReader, journal_normalize, LoadUnit.symbols, unitSymbols,
      documents_of_read config system files path file reader returned]
    exact ⟨.head _, rfl⟩
  silent := libraryProblems_of_read config system files path file reader returned

theorem LoadUnit.IsRead.mono {config : Configuration} {system : FileSystem} {unit : LoadUnit}
    {few many : List (List ReadEvent)} (isRead : unit.IsRead config system few)
    (more : few ⊆ many) : unit.IsRead config system many where
  normal := isRead.normal
  journal := by
    obtain ⟨files, listed, symbols⟩ := isRead.journal
    exact ⟨files, more listed, symbols⟩
  silent := isRead.silent

theorem isRead_of_mem_units (config : Configuration) (system : FileSystem)
    (cancellation : Cancellation) (notifications : Nat) (files : FileSet) (paths : List Path) :
    let loaded := loadUnits config system cancellation notifications files paths
    ∀ unit ∈ loaded.units, unit.IsRead config system
      (journals config system files loaded.started) := by
  induction paths generalizing notifications files with
  | nil =>
    intro loaded unit absent
    cases absent
  | cons path rest ih =>
    rw [loadUnits]
    split
    · intro loaded unit absent
      cases absent
    · split
      next failure failed =>
        intro loaded unit member
        -- A unit that cannot be read numbers no files.
        have same : LoadUnit.filesAfter config system files path = files := by
          rw [LoadUnit.filesAfter, failed]
        refine (ih (notifications + 1) files unit member).mono ?_
        rw [journals, same]
        exact List.subset_cons_self _ _
      next file reader returned =>
        intro loaded unit member
        have next : LoadUnit.filesAfter config system files path = reader.files := by
          rw [LoadUnit.filesAfter, returned]
        rw [journals, next]
        rcases List.mem_cons.mp member with rfl | later
        · exact (LoadUnit.isRead_of_read _ _ _ _ _ _ returned).mono (by simp)
        · exact (ih _ _ unit later).mono (List.subset_cons_self _ _)

/-! ### Reports of units -/

namespace Snapshot

theorem diagnostics_absorb (snapshot : Snapshot) (documents : List Document)
    (diagnostics : List Diagnostic) (unresolved : List UnresolvedVariable) :
    (snapshot.absorb documents diagnostics unresolved).diagnostics =
      snapshot.diagnostics ++ diagnostics := by
  have folded (start : Snapshot) :
      (documents.foldl addDocument start).diagnostics = start.diagnostics := by
    induction documents generalizing start with
    | nil => rfl
    | cons document rest ih => exact ih _
  exact folded _

/-- Units that report nothing about libraries leave the reports about libraries alone. -/
theorem libraryProblems_foldl (absorb : Snapshot → LoadUnit → Snapshot)
    (added : ∀ snapshot unit, (absorb snapshot unit).diagnostics =
      snapshot.diagnostics ++ unit.diagnostics)
    (units : List LoadUnit) (silent : ∀ unit ∈ units, libraryProblems unit.diagnostics = [])
    (snapshot : Snapshot) :
    libraryProblems (units.foldl absorb snapshot).diagnostics =
      libraryProblems snapshot.diagnostics := by
  induction units generalizing snapshot with
  | nil => rfl
  | cons unit rest ih =>
    rw [List.foldl_cons, ih (fun other member => silent other (.tail _ member)), added,
      libraryProblems_append, silent unit (.head _), List.append_nil]

theorem mem_modules_foldl (units : List LoadUnit) (snapshot : Snapshot) (info : ModuleInfo)
    (member : info ∈ (units.foldl absorbModule snapshot).modules) :
    info ∈ snapshot.modules ∨ ∃ unit ∈ units, info = unit.moduleInfo := by
  induction units generalizing snapshot with
  | nil => exact .inl member
  | cons unit rest ih =>
    rcases ih _ member with before | ⟨other, later, same⟩
    · rw [absorbModule_modules] at before
      rcases Registry.mem_of_mem_put _ _ _ _ before with own | old
      · exact .inr ⟨unit, .head _, own⟩
      · exact .inl old
    · exact .inr ⟨other, .tail _ later, same⟩

end Snapshot

theorem LoadProgress.libraryProblems_loadWave (progress : LoadProgress) (source : LoadSource)
    (paths : List Path) (absorb : Snapshot → LoadUnit → Snapshot)
    (added : ∀ snapshot unit, (absorb snapshot unit).diagnostics =
      snapshot.diagnostics ++ unit.diagnostics) :
    libraryProblems (progress.loadWave source paths absorb).snapshot.diagnostics =
      libraryProblems progress.snapshot.diagnostics := by
  have silent := isRead_of_mem_units source.config source.system source.cancellation
    progress.events.length progress.snapshot.files paths
  rw [loadWave, Snapshot.libraryProblems_foldl absorb added _
    (fun unit member => (silent unit member).silent)]

/-! ### Loads before their libraries are bound -/

/-- The modules are those of units that were read, and nothing is reported of libraries. -/
structure LoadProgress.IsUnbound (source : LoadSource) (progress : LoadProgress) : Prop where
  modules : ∀ info ∈ progress.snapshot.modules, ∃ unit : LoadUnit,
    unit.IsRead source.config source.system
      (journals source.config source.system .empty (unitsOf progress.events)) ∧
    info = unit.moduleInfo
  silent : libraryProblems progress.snapshot.diagnostics = []

namespace LoadProgress.IsUnbound

variable {source : LoadSource} {progress : LoadProgress}

theorem loadWave (isUnbound : IsUnbound source progress) (isTrue : IsTrue source progress)
    (paths : List Path) :
    IsUnbound source (progress.loadWave source paths Snapshot.absorbModule) where
  modules info member := by
    rw [unitsOf_loadWave, journals_append, ← isTrue.files]
    rcases Snapshot.mem_modules_foldl _ _ info member with before | ⟨unit, loaded, same⟩
    · obtain ⟨unit, isRead, same⟩ := isUnbound.modules info before
      exact ⟨unit, isRead.mono (List.subset_append_left _ _), same⟩
    · have isRead := isRead_of_mem_units _ _ _ _ _ _ unit loaded
      exact ⟨unit, isRead.mono (List.subset_append_right _ _), same⟩
  silent := by
    rw [libraryProblems_loadWave progress source paths Snapshot.absorbModule
      fun _ _ => Snapshot.diagnostics_absorb _ _ _ _]
    exact isUnbound.silent

theorem loadComponents (isUnbound : IsUnbound source progress) (isTrue : IsTrue source progress) :
    IsUnbound source (progress.loadComponents source).1 :=
  { isUnbound.loadWave isTrue _ with }

theorem of_waves {attempted : List Path} {final : LoadProgress}
    (waves : Waves source attempted progress final) (isUnbound : IsUnbound source progress)
    (isTrue : IsTrue source progress) : IsUnbound source final := by
  induction waves with
  | cancelled => exact { isUnbound with }
  | settled => exact isUnbound
  | wave _ _ _ ih => exact ih (isUnbound.loadWave isTrue _) (isTrue.loadWave _ _ absorbs_module)

theorem of_roots (generation : Nat) (roots : List Path)
    (complete : (LoadProgress.start generation roots).loadRoots source roots =
      .complete progress) : IsUnbound source progress where
  modules info member := by
    rw [(isTrue_of_complete source generation roots progress complete).2] at member
    cases member
  silent := by
    refine keeps_of_complete
      (motive := fun progress => libraryProblems progress.snapshot.diagnostics = []) source ?_ rfl
      complete
    intro later root file reader returned silent
    rw [absorbRoot, Snapshot.absorbRoot, Snapshot.diagnostics_absorb, libraryProblems_append,
      LoadUnit.libraryProblems_of_read _ _ _ _ _ _ returned, List.append_nil]
    exact silent

end LoadProgress.IsUnbound

/-! ### Lines at which bindings are reported -/

/-- The lines of a file that use a class, as the last unit over the file left them. -/
def usagesIn (units : List (List ReadEvent)) (file : FileId) (className : String) : List Symbol :=
  (ownSymbols (symbolsOf (lastOver units file)) file).filter (·.IsUsage className)

/-- The index holds, for every file, what the last unit over it emitted for it, in this order. -/
theorem Reflects.inFile_eq (config : Configuration) (system : FileSystem) (files : FileSet)
    (paths : List Path) (snapshot : Snapshot) (file : FileId)
    (reflects : Reflects (journals config system files paths) snapshot) :
    snapshot.symbols.inFile file =
      ownSymbols (symbolsOf (lastOver (journals config system files paths) file)) file := by
  have passed : passedSymbols (lastOver (journals config system files paths) file) =
      ownSymbols (symbolsOf (lastOver (journals config system files paths) file)) := by
    rcases lastOver_mem_or_nil (journals config system files paths) file with member | empty
    · obtain ⟨_, path, given⟩ := mem_journals config system files paths _ member
      rw [given]
      exact Reader.passedSymbols_journal _ _ _ _ _ _
    · rw [empty]
      rfl
  rw [reflects.indexed.symbols, reflects.documents, ← passed]
  cases given : documentOf (lastPasses (journals config system files paths) file) with
  | none =>
    have untouched := (documentOf_eq_none _).mp given
    rw [lastPasses] at untouched
    rw [passedSymbols, untouched]
    rfl
  | some document => exact (documentOf_eq_some _ _ given).1

/-- A class is looked up among the lines of the file that use it. -/
theorem Reflects.usageLocation_eq (config : Configuration) (system : FileSystem)
    (files : FileSet) (paths : List Path) (snapshot : Snapshot) (file : FileId)
    (className : String) (reflects : Reflects (journals config system files paths) snapshot) :
    usageLocation? snapshot.symbols (some file) className =
      (usagesIn (journals config system files paths) file className).head?.map
        Symbol.location := by
  rw [usageLocation?, Option.bind_some, reflects.inFile_eq, usagesIn, List.head?_filter]
  rfl

/-- A failed binding is told with its code at its line, if it has one. -/
theorem Diagnostic.ofBinding_of_failed (binding : LibraryBinding)
    (failed : binding.resolution.isFound = false) :
    (ofBinding? binding).map (fun diagnostic => (diagnostic.location, diagnostic.problem.code)) =
      binding.usage.map fun place =>
        (place, some (if binding.resolution = .notFound then "W0001" else "W0002")) := by
  unfold ofBinding?
  cases resolution : binding.resolution with
  | found symbol =>
    rw [resolution] at failed
    cases failed
  | ambiguous symbols =>
    cases usage : binding.usage <;> simp [ambiguousLibrary?, usage, Problem.code]
  | notFound =>
    cases usage : binding.usage <;> simp [unresolvedLibrary?, usage, plain, Problem.code]

/-- The consumer of a binding was read as a unit and uses the class there; `file` is the file
that its module is taken to have. -/
structure LibraryBinding.IsConsumedIn (config : Configuration) (system : FileSystem)
    (binding : LibraryBinding) (unit : List ReadEvent) (file : FileId) : Prop where
  consumer : ∃ files, unit = LoadUnit.journal config system files binding.consumer
  used : ∃ symbol, .emitted symbol ∈ unit ∧ symbol.IsUsage binding.className
  file : moduleFile? unit = some file

namespace LoadProgress

variable {source : LoadSource} {progress : LoadProgress}

/-- Whatever consumes a class is spelled in its normal form. -/
theorem normalize_of_consumer (isTrue : IsTrue source progress)
    (normal : ∀ component ∈ progress.snapshot.components,
      component.path.normalize = component.path)
    (binding : LibraryBinding) (bound : binding ∈ progress.snapshot.closures) :
    binding.consumer.normalize = binding.consumer := by
  obtain ⟨component, member, made⟩ := List.mem_flatMap.mp bound
  have visits := visits_libraryClosure progress.snapshot.symbols progress.snapshot.modules
    component.context component.path
  rcases visits.queued_or_bound (List.Subset.refl _) binding made with
    own | ⟨other, madeToo, _, _, aimed⟩
  · rw [List.mem_singleton.mp own]
    exact normal component member
  · apply isTrue.normalize_of_target
    exact List.mem_filterMap.mpr ⟨other, List.mem_flatMap.mpr ⟨component, member, madeToo⟩, aimed⟩

/-- A binding is looked up in the file that its consumer is taken to have. -/
theorem IsUnbound.usage_eq (isUnbound : IsUnbound source progress)
    (isTrue : IsTrue source progress)
    (normal : ∀ component ∈ progress.snapshot.components,
      component.path.normalize = component.path)
    (binding : LibraryBinding) (bound : binding ∈ progress.snapshot.closures) :
    let units := journals source.config source.system .empty (unitsOf progress.events)
    ∃ unit ∈ units, ∃ file, binding.IsConsumedIn source.config source.system unit file ∧
      binding.usage = (usagesIn units file binding.className).head?.map Symbol.location := by
  intro units
  have spelled := normalize_of_consumer isTrue normal binding bound
  obtain ⟨component, _, made⟩ := List.mem_flatMap.mp bound
  obtain ⟨info, loaded, used, usage⟩ := (visits_libraryClosure progress.snapshot.symbols
    progress.snapshot.modules component.context component.path).made_by binding made
  obtain ⟨unit, isRead, rfl⟩ := isUnbound.modules info (List.mem_of_find?_eq_some loaded)
  -- The module is found under the path at which its unit was read.
  have path : unit.moduleInfo.path = unit.path := ModuleInfo.path_ofSymbols _ _
  have found := List.find?_some loaded
  rw [path] at found
  have same := Path.eq_of_same _ _ isRead.normal spelled found
  obtain ⟨files, read, symbols⟩ := isRead.journal
  rw [same] at read symbols
  rw [LoadUnit.moduleInfo, symbols] at used usage
  obtain ⟨symbol, member, uses⟩ := (ModuleInfo.mem_libraryClasses_ofSymbols _ _ _).mp used
  rw [ModuleInfo.file_ofSymbols, LoadUnit.head_unitSymbols] at usage
  -- A unit with a symbol has a file with one.
  obtain ⟨file, own⟩ : ∃ file,
      moduleFile? (LoadUnit.journal source.config source.system files binding.consumer) =
        some file := by
    rw [← LoadUnit.head_unitSymbols]
    obtain ⟨first, rest, listed⟩ := List.exists_cons_of_ne_nil (List.ne_nil_of_mem member)
    exact ⟨first.file, by rw [listed]; rfl⟩
  have emitted := (LoadUnit.mem_unitSymbols_iff _ _ _ _ _).mp member
  refine ⟨_, read, file, ⟨⟨files, rfl⟩, ⟨symbol, emitted, uses⟩, own⟩, ?_⟩
  rw [usage, own]
  exact isTrue.reflects.usageLocation_eq _ _ _ _ _ _ _

end LoadProgress

/-! ### Reports of a load -/

/-- The reports on bindings are about libraries. -/
theorem Diagnostic.libraryProblems_ofBindings (bindings : List LibraryBinding) :
    libraryProblems (ofBindings bindings) = ofBindings bindings := by
  apply List.filter_eq_self.mpr
  intro diagnostic member
  obtain ⟨binding, _, told⟩ := List.mem_filterMap.mp member
  unfold ofBinding? at told
  split at told
  · cases told
  all_goals
    obtain ⟨place, _, rfl⟩ := Option.map_eq_some_iff.mp told
    rfl

namespace LoadProgress

variable (source : LoadSource) (progress : LoadProgress)

/-- Packages add no report on a library, and their units come last. -/
theorem loadPackages_reports
    (uncancelled : (progress.loadPackages source).snapshot.cancelled = false) :
    libraryProblems (progress.loadPackages source).snapshot.diagnostics =
        libraryProblems progress.snapshot.diagnostics ∧
      unitsOf (progress.loadPackages source).events =
        unitsOf progress.events ++ unseen [] (progress.snapshot.modules.flatMap (·.packages)) := by
  unfold loadPackages at uncancelled ⊢
  split at uncancelled
  · cases uncancelled
  next going =>
    rw [if_neg going]
    dsimp only at uncancelled ⊢
    constructor
    · exact libraryProblems_loadWave progress source _ Snapshot.absorbPackage
        fun _ _ => Snapshot.diagnostics_absorb _ _ _ _
    · rw [unitsOf_loadWave]
      apply congrArg (unitsOf progress.events ++ ·)
      apply started_of_uncancelled
      rw [isCancelled, loadWave, List.length_append, List.length_map] at uncancelled
      exact uncancelled

end LoadProgress

/-- The reports on the bindings of a snapshot: one for each failed binding, at the first line
that uses the class in the file which the consumer is taken to have. Without such a line there
is no report. -/
structure Snapshot.IsReported (config : Configuration) (system : FileSystem)
    (units : List (List ReadEvent)) (snapshot : Snapshot) : Prop where
  problems : libraryProblems snapshot.diagnostics = snapshot.bindings.filterMap
    Diagnostic.ofBinding?
  failed : ∀ binding ∈ snapshot.bindings, binding.resolution.isFound = false →
    ∃ unit ∈ units, ∃ file, binding.IsConsumedIn config system unit file ∧
      (Diagnostic.ofBinding? binding).map
          (fun diagnostic => (diagnostic.location, diagnostic.problem.code)) =
        (usagesIn units file binding.className).head?.map fun symbol => (symbol.location,
          some (if binding.resolution = .notFound then "W0001" else "W0002"))

/-- Bindings are reported when they are made, and packages change nothing about it. -/
theorem LoadProgress.IsUnbound.isReported {source : LoadSource} {progress : LoadProgress}
    (isUnbound : IsUnbound source progress) (isTrue : IsTrue source progress)
    (normal : ∀ component ∈ progress.snapshot.components,
      component.path.normalize = component.path)
    (uncancelled : (progress.bindLibraries.loadPackages source).snapshot.cancelled = false) :
    (progress.bindLibraries.loadPackages source).snapshot.IsReported source.config source.system
      (journals source.config source.system .empty (unitsOf progress.events)) := by
  have ⟨_, kept⟩ := libraries_loadPackages source progress.bindLibraries uncancelled
  have bindings : (progress.bindLibraries.loadPackages source).snapshot.bindings =
      progress.snapshot.closures := (Prod.mk.inj (Prod.mk.inj kept).2).2
  have ⟨told, _⟩ := loadPackages_reports source progress.bindLibraries uncancelled
  constructor
  · rw [told, bindings, bindLibraries, libraryProblems_append, isUnbound.silent, List.nil_append,
      Diagnostic.libraryProblems_ofBindings]
    rfl
  · intro binding bound failed
    rw [bindings] at bound
    obtain ⟨unit, read, file, consumed, usage⟩ :=
      isUnbound.usage_eq isTrue normal binding bound
    refine ⟨unit, read, file, consumed, ?_⟩
    rw [Diagnostic.ofBinding_of_failed binding failed, usage, Option.map_map]
    rfl

/-- A load that was not cancelled reports its bindings as the units that it read before the
packages let it find their lines. -/
theorem Workspace.load_reports (workspace : Workspace) (system : FileSystem)
    (cancellation : Cancellation) (snapshot : Snapshot)
    (published : (workspace.load system cancellation).1.result = .ok snapshot)
    (uncancelled : snapshot.cancelled = false) :
    ∃ before, unitsOf (workspace.load system cancellation).1.events =
        before ++ unseen [] (snapshot.modules.flatMap (·.packages)) ∧
      snapshot.IsReported workspace.config system
        (journals workspace.config system .empty before) := by
  have built := workspace.load_of_published system cancellation snapshot published
  rw [built] at published ⊢
  let source : LoadSource := ⟨workspace.config, system, cancellation⟩
  obtain ⟨progress, complete, ends, rfl⟩ :=
    LoadReport.complete_of_uncancelled source _ _ snapshot published uncancelled
  have ⟨rooted, bare⟩ := isTrue_of_complete source _ _ progress complete
  have waves := waves_loadLibraries source _ _ _ rooted.isLoading (rooted.suffices bare)
  have unbound := ((LoadProgress.IsUnbound.of_roots _ _ complete).loadComponents
    rooted).of_waves waves rooted.loadComponents
  let final := LoadProgress.loadLibraries source (system.pathCount + 1)
    (progress.loadComponents source).2 (progress.loadComponents source).1
  have settled : IsTrue source final := rooted.loadComponents.loadLibraries _ _
  have normal : ∀ component ∈ final.snapshot.components,
      component.path.normalize = component.path := by
    rw [waves.components_eq]
    exact rooted.normalize_of_component
  have ⟨_, kept⟩ := libraries_loadPackages source final.bindLibraries uncancelled
  have ⟨_, read⟩ := LoadProgress.loadPackages_reports source final.bindLibraries uncancelled
  refine ⟨unitsOf final.events, ?_, unbound.isReported settled normal uncancelled⟩
  -- The last event tells of no unit.
  rw [ends, LoadReport.finished, unitsOf, List.filterMap_append]
  refine (List.append_nil _).trans (read.trans ?_)
  rw [← (Prod.mk.inj (Prod.mk.inj kept).2).1]
  rfl

/-! ### A module with an include in front -/

def splitModule : Workspace :=
  .new { Configuration.initial with workspaceRoot := ⟨"/ws"⟩, roots := [⟨"P.dsc"⟩] }

/-- A module that leaves its definitions to an included file and uses a class without an
instance. -/
def splitModuleFiles : FileSystem :=
  .memory (.ofList [
    (⟨"/ws/P.dsc"⟩, "[Components]\nM.inf\n"),
    (⟨"/ws/M.inf"⟩, "!include D.inc\n[LibraryClasses]\nL\n"),
    (⟨"/ws/D.inc"⟩, "[Defines]\nBASE_NAME = M\n")])

/-- The class of the module has no instance, and nothing is reported. -/
theorem splitModule_unreported :
    ∃ snapshot binding, (splitModule.load splitModuleFiles .never).1.result = .ok snapshot ∧
      snapshot.cancelled = false ∧ binding ∈ snapshot.bindings ∧
      binding.resolution = .notFound ∧ libraryProblems snapshot.diagnostics = [] := by
  have loaded : (splitModule.load splitModuleFiles .never).1.result.toOption.any (fun snapshot =>
      snapshot.cancelled = false ∧ snapshot.bindings.filterMap Diagnostic.ofBinding? = [] ∧
        ∃ binding ∈ snapshot.bindings, binding.resolution = .notFound) = true := by
    decide +kernel
  cases published : (splitModule.load splitModuleFiles .never).1.result with
  | error failure =>
    rw [published] at loaded
    cases loaded
  | ok snapshot =>
    rw [published] at loaded
    obtain ⟨uncancelled, untold, binding, bound, failed⟩ := of_decide_eq_true loaded
    obtain ⟨_, _, reported⟩ :=
      Workspace.load_reports _ _ _ snapshot published uncancelled
    exact ⟨snapshot, binding, rfl, uncancelled, bound, failed, reported.problems.trans untold⟩

end FirmwareWorkspace
