import FirmwareWorkspace.Proofs.Document.Unbounded
import FirmwareWorkspace.Proofs.Library.Closure
import FirmwareWorkspace.Proofs.Library.Declared
import FirmwareWorkspace.Proofs.Load.Contribution

/-!
# The libraries of a load

Library modules are read wave by wave, and every wave may change what the classes resolve to.
The load goes on until all that is bound has been attempted. Every wave but the last one
attempts a file that can be read and was not attempted before, or it changes no binding and
nothing is left after it; so the files of the file system bound the waves.

Main result: `LoadReport.build_isClosed`. All loops of a load end, and a load that was not
cancelled leaves no class without a binding in any module that it binds and can read.
-/
namespace FirmwareWorkspace

/-! ### Modules of units -/

namespace ModuleInfo

theorem path_addSymbol (info : ModuleInfo) (symbol : Symbol) :
    (info.addSymbol symbol).path = info.path := by
  unfold addSymbol
  dsimp only
  split
  · unfold define
    split <;> rfl
  all_goals rfl

theorem path_ofSymbols (path : Path) (symbols : List Symbol) :
    (ofSymbols path symbols).path = path := by
  have folded (info : ModuleInfo) : (symbols.foldl addSymbol info).path = info.path := by
    induction symbols generalizing info with
    | nil => rfl
    | cons symbol rest ih => rw [List.foldl_cons, ih, path_addSymbol]
  exact folded (empty path)

end ModuleInfo

namespace Snapshot

/-- The paths at which modules are loaded. -/
def modulePaths (snapshot : Snapshot) : List Path :=
  snapshot.modules.map (·.path)

theorem findModule_of_mem (snapshot : Snapshot) (path : Path)
    (member : path ∈ snapshot.modulePaths) :
    ∃ info, findModule? snapshot.modules path = some info := by
  obtain ⟨info, listed, rfl⟩ := List.mem_map.mp member
  refine Option.isSome_iff_exists.mp (List.find?_isSome.mpr ⟨info, listed, ?_⟩)
  exact (Path.same_iff _ _).mpr rfl

theorem absorbModule_modules (snapshot : Snapshot) (unit : LoadUnit) :
    (snapshot.absorbModule unit).modules =
      Registry.put ModuleInfo.path unit.moduleInfo snapshot.modules :=
  view_absorb (·.modules) (fun _ _ _ _ _ => rfl) _ _ _ _

theorem absorbModule_components (snapshot : Snapshot) (unit : LoadUnit) :
    (snapshot.absorbModule unit).components = snapshot.components :=
  view_absorb (·.components) (fun _ _ _ _ _ => rfl) _ _ _ _

theorem mem_modulePaths_absorbModule (snapshot : Snapshot) (unit : LoadUnit) (path : Path)
    (known : path = unit.path ∨ path ∈ snapshot.modulePaths) :
    path ∈ (snapshot.absorbModule unit).modulePaths := by
  rw [modulePaths, absorbModule_modules]
  refine Registry.mem_map_put ModuleInfo.path _ _ path (known.imp_left fun own => ?_)
  rw [own]
  exact (ModuleInfo.path_ofSymbols _ _).symm

theorem mem_modulePaths_foldl (units : List LoadUnit) (snapshot : Snapshot) (path : Path)
    (known : (∃ unit ∈ units, path = unit.path) ∨ path ∈ snapshot.modulePaths) :
    path ∈ (units.foldl absorbModule snapshot).modulePaths := by
  induction units generalizing snapshot with
  | nil => exact known.resolve_left fun ⟨_, absent, _⟩ => nomatch absent
  | cons unit rest ih =>
    refine ih _ ?_
    rcases known with ⟨other, member, own⟩ | before
    · rcases List.mem_cons.mp member with rfl | later
      · exact .inr (mem_modulePaths_absorbModule _ _ _ (.inl own))
      · exact .inl ⟨other, later, own⟩
    · exact .inr (mem_modulePaths_absorbModule _ _ _ (.inr before))

end Snapshot

/-! ### Units of a wave -/

theorem Cancellation.isReached_mono (cancellation : Cancellation) (few many : Nat)
    (more : few ≤ many) (reached : cancellation.isReached few = true) :
    cancellation.isReached many = true := by
  obtain ⟨limit, given, passed⟩ := (Option.any_eq_true _ _).mp reached
  have limited : limit ≤ few := of_decide_eq_true passed
  exact (Option.any_eq_true _ _).mpr ⟨limit, given, decide_eq_true (Nat.le_trans limited more)⟩

/-- A unit can be read exactly if its file can. -/
theorem LoadUnit.read_error_iff (config : Configuration) (system : FileSystem) (files : FileSet)
    (path : Path) :
    (∃ failure, LoadUnit.read config system files path = .error failure) ↔
      ∃ failure, system.read path.normalize = .error failure := by
  simp only [LoadUnit.read, Reader.read, Reader.readFile]
  cases system.read path.normalize with
  | error failure => simp
  | ok text => simp

section Units

variable (config : Configuration) (system : FileSystem) (cancellation : Cancellation)
  (notifications : Nat) (files : FileSet) (paths : List Path)

/-- Without a cancellation all units are started. -/
theorem started_of_uncancelled
    (going : cancellation.isReached (notifications +
      (loadUnits config system cancellation notifications files paths).started.length) = false) :
    (loadUnits config system cancellation notifications files paths).started = paths := by
  induction paths generalizing notifications files with
  | nil => rfl
  | cons path rest ih =>
    revert going
    rw [loadUnits]
    split
    next reached =>
      -- Nothing is started, so the notifications are those at which the load is cancelled.
      intro going
      rw [List.length_nil, Nat.add_zero, reached] at going
      cases going
    · split
      all_goals
        intro going
        rw [List.length_cons, Nat.add_comm _ 1, ← Nat.add_assoc] at going
        exact congrArg (path :: ·) (ih _ _ going)

/-- A started unit is there or cannot be read. -/
theorem unit_of_started (path : Path)
    (member : path ∈ (loadUnits config system cancellation notifications files paths).started) :
    (∃ failure, system.read path.normalize = .error failure) ∨
      ∃ unit ∈ (loadUnits config system cancellation notifications files paths).units,
        path.normalize = unit.path := by
  induction paths generalizing notifications files with
  | nil => cases member
  | cons first rest ih =>
    -- Which units are started depends on how the first one is read.
    revert member
    rw [loadUnits]
    split
    · intro member
      cases member
    · split
      next failure failed =>
        intro member
        rcases List.mem_cons.mp member with rfl | later
        · exact .inl ((LoadUnit.read_error_iff config system files path).mp ⟨failure, failed⟩)
        · exact ih _ _ later
      next file reader _ =>
        intro member
        rcases List.mem_cons.mp member with rfl | later
        · exact .inr ⟨.ofReader path file reader, .head _, rfl⟩
        · refine (ih _ _ later).imp_right fun found => ?_
          obtain ⟨unit, loaded, named⟩ := found
          exact ⟨unit, .tail _ loaded, named⟩

theorem units_of_unreadable
    (unreadable : ∀ path ∈ paths, ∃ failure, system.read path.normalize = .error failure) :
    (loadUnits config system cancellation notifications files paths).units = [] := by
  induction paths generalizing notifications files with
  | nil => rfl
  | cons path rest ih =>
    rw [loadUnits]
    split
    · rfl
    · split
      · exact ih _ _ fun other member => unreadable other (.tail _ member)
      next returned =>
        obtain ⟨_, failed⟩ := (LoadUnit.read_error_iff config system files path).mpr
          (unreadable path (.head _))
        rw [returned] at failed
        cases failed

end Units

/-! ### Waves -/

namespace LoadProgress

variable (progress : LoadProgress) (source : LoadSource)

/-- The modules that the classes of all components are bound to. -/
def targets : List Path :=
  progress.snapshot.closures.filterMap LibraryBinding.target?

/-- What no unit changes is not changed by a wave either. -/
theorem view_loadWave {β : Type} (view : Snapshot → β) (paths : List Path)
    (absorb : Snapshot → LoadUnit → Snapshot)
    (numbered : ∀ snapshot files, view { snapshot with files := files } = view snapshot)
    (kept : ∀ snapshot unit, view (absorb snapshot unit) = view snapshot) :
    view (progress.loadWave source paths absorb).snapshot = view progress.snapshot :=
  (view_foldl view absorb kept _ _).trans (numbered _ _)

theorem loadWave_of_unreadable (paths : List Path)
    (unreadable : ∀ path ∈ paths, ∃ failure, source.system.read path.normalize = .error failure) :
    ∃ files, (progress.loadWave source paths Snapshot.absorbModule).snapshot =
      { progress.snapshot with files := files } := by
  rw [loadWave, units_of_unreadable _ _ _ _ _ paths unreadable]
  exact ⟨_, rfl⟩

theorem going_of_loadWave (paths : List Path)
    (absorb : Snapshot → LoadUnit → Snapshot)
    (going : (progress.loadWave source paths absorb).isCancelled source = false) :
    progress.isCancelled source = false := by
  rw [← Bool.not_eq_true] at going ⊢
  refine fun reached => going (source.cancellation.isReached_mono _ _ ?_ reached)
  rw [loadWave, List.length_append]
  exact Nat.le_add_right _ _

end LoadProgress

/-- How library modules are read if nothing bounds the waves: from the paths that were
attempted and the progress to the progress at the end. -/
inductive Waves (source : LoadSource) : List Path → LoadProgress → LoadProgress → Prop
  | cancelled {attempted : List Path} {progress : LoadProgress}
      (reached : progress.isCancelled source = true) :
      Waves source attempted progress progress.cancel
  | settled {attempted : List Path} {progress : LoadProgress}
      (going : progress.isCancelled source = false)
      (nothing : unseen attempted progress.targets = []) : Waves source attempted progress progress
  | wave {attempted : List Path} {progress final : LoadProgress}
      (going : progress.isCancelled source = false)
      (something : unseen attempted progress.targets ≠ [])
      (after : Waves source (unseen attempted progress.targets ++ attempted)
        (progress.loadWave source (unseen attempted progress.targets) Snapshot.absorbModule)
        final) :
      Waves source attempted progress final

/-- What is attempted while libraries are read: normal forms only, each of which is loaded or
cannot be read unless the load is cancelled. -/
structure IsLoading (source : LoadSource) (attempted : List Path) (progress : LoadProgress) :
    Prop where
  isTrue : IsTrue source progress
  normal : ∀ path ∈ attempted, path.normalize = path
  loaded : progress.isCancelled source = false → ∀ path ∈ attempted,
    (∃ failure, source.system.read path = .error failure) ∨ path ∈ progress.snapshot.modulePaths

theorem IsTrue.normalize_of_resolve {source : LoadSource} {progress : LoadProgress}
    (isTrue : IsTrue source progress) (context : ConsumerContext) (className : String)
    (path : Path)
    (aimed : (Library.resolve progress.snapshot.symbols className context).symbol?.bind
      (·.target) = some path) : path.normalize = path := by
  obtain ⟨symbol, answer, target⟩ := Option.bind_eq_some_iff.mp aimed
  have resolved := LibraryResolution.eq_found_of_symbol _ symbol answer
  have held := Library.mem_slots_of_resolve _ _ _ symbol resolved
  exact (isTrue.reflects.isSound _ _ _ _ _ symbol held).target path target

/-- Libraries are bound to normal forms. -/
theorem IsTrue.normalize_of_target {source : LoadSource} {progress : LoadProgress}
    (isTrue : IsTrue source progress) (path : Path) (member : path ∈ progress.targets) :
    path.normalize = path := by
  obtain ⟨binding, bound, aimed⟩ := List.mem_filterMap.mp member
  obtain ⟨component, _, made⟩ := List.mem_flatMap.mp bound
  have ⟨_, resolution⟩ := (visits_libraryClosure _ _ component.context component.path).made_for
    binding made
  rw [LibraryBinding.target?, resolution] at aimed
  exact isTrue.normalize_of_resolve _ _ path aimed

theorem IsLoading.wave {source : LoadSource} {attempted : List Path} {progress : LoadProgress}
    (loading : IsLoading source attempted progress) (wave : List Path)
    (normal : ∀ path ∈ wave, path.normalize = path) :
    IsLoading source (wave ++ attempted)
      (progress.loadWave source wave Snapshot.absorbModule) where
  isTrue := loading.isTrue.loadWave wave _ absorbs_module
  normal path member := (List.mem_append.mp member).elim (normal path) (loading.normal path)
  loaded going path member := by
    have loaded (known : path ∈ progress.snapshot.modulePaths ∨
        ∃ unit ∈ (loadUnits source.config source.system source.cancellation progress.events.length
          progress.snapshot.files wave).units, path = unit.path) :
        path ∈ (progress.loadWave source wave Snapshot.absorbModule).snapshot.modulePaths :=
      Snapshot.mem_modulePaths_foldl _ _ path known.symm
    rcases List.mem_append.mp member with new | old
    · -- The load is not cancelled after the wave, so all units of the wave were started.
      have all := started_of_uncancelled source.config source.system source.cancellation
        progress.events.length progress.snapshot.files wave (by
          rw [LoadProgress.isCancelled, LoadProgress.loadWave, List.length_append,
            List.length_map] at going
          exact going)
      rw [← all] at new
      have unit := unit_of_started _ _ _ _ _ _ path new
      rw [all] at new
      rw [normal path new] at unit
      exact unit.imp_right fun found => loaded (.inr found)
    · have before := progress.going_of_loadWave source wave _ going
      exact (loading.loaded before path old).imp_right fun found => loaded (.inl found)

/-! ### The bound on the waves -/

/-- Number of files that were not attempted. -/
def pathsLeft (system : FileSystem) (attempted : List Path) : Nat :=
  (system.paths.filter (· ∉ attempted)).length

theorem pathsLeft_nil (system : FileSystem) : pathsLeft system [] = system.fileCount := by
  rw [pathsLeft, ← system.length_paths, List.filter_eq_self.mpr fun _ _ => by simp]

/-- A wave with a file that can be read leaves fewer files. -/
theorem pathsLeft_wave (system : FileSystem) (wave attempted : List Path)
    (normal : ∀ path ∈ wave, path.normalize = path) (fresh : ∀ path ∈ wave, path ∉ attempted)
    (readable : ¬∀ path ∈ wave, ∃ failure, system.read path.normalize = .error failure) :
    pathsLeft system (wave ++ attempted) < pathsLeft system attempted := by
  have narrowed : system.paths.filter (· ∉ wave ++ attempted) =
      (system.paths.filter (· ∉ attempted)).filter (· ∉ wave) := by
    rw [List.filter_filter]
    refine List.filter_congr fun other _ => ?_
    simp only [List.mem_append, not_or, Bool.decide_and]
  -- The file that can be read is left before the wave, and not after it.
  obtain ⟨path, unread⟩ := Classical.not_forall.mp readable
  obtain ⟨member, succeeds⟩ := Classical.not_forall.mp unread
  have listed : path ∈ system.paths := by
    cases read : system.read path with
    | error failure => exact absurd ⟨failure, by rw [normal path member, read]⟩ succeeds
    | ok text => exact system.mem_paths_of_read path (normal path member) text read
  rw [pathsLeft, pathsLeft, narrowed, List.length_filter_lt_length_iff_exists]
  exact ⟨path, by simpa using ⟨listed, fresh path member⟩, by simpa using member⟩

/-- Waves that suffice: there is nothing to attempt, or there is one wave for every file that
was not attempted and one for paths that cannot be read. -/
def Suffices (source : LoadSource) (waves : Nat) (attempted : List Path)
    (progress : LoadProgress) : Prop :=
  0 < waves ∧
    (unseen attempted progress.targets = [] ∨ pathsLeft source.system attempted + 1 < waves)

theorem Suffices.wave {source : LoadSource} {waves : Nat} {attempted : List Path}
    {progress : LoadProgress} (enough : Suffices source (waves + 1) attempted progress)
    (isTrue : IsTrue source progress) (something : unseen attempted progress.targets ≠ []) :
    Suffices source waves (unseen attempted progress.targets ++ attempted)
      (progress.loadWave source (unseen attempted progress.targets) Snapshot.absorbModule) := by
  have bound := enough.2.resolve_left something
  refine ⟨by omega, ?_⟩
  by_cases unreadable : ∀ path ∈ unseen attempted progress.targets,
      ∃ failure, source.system.read path.normalize = .error failure
  · -- Nothing was loaded, so nothing is bound anew.
    obtain ⟨files, same⟩ := progress.loadWave_of_unreadable source _ unreadable
    have unchanged : (progress.loadWave source (unseen attempted progress.targets)
        Snapshot.absorbModule).targets = progress.targets :=
      congrArg (fun snapshot => snapshot.closures.filterMap LibraryBinding.target?) same
    rw [unchanged]
    exact .inl (unseen_unseen attempted progress.targets)
  · have less := pathsLeft_wave source.system _ attempted
      (fun path member => isTrue.normalize_of_target path ((unseen_sublist _ _).subset member))
      (fun path member before => (unseen_fresh _ _).2 path member (List.mem_map_of_mem before))
      unreadable
    exact .inr (by omega)

theorem waves_loadLibraries (source : LoadSource) (waves : Nat) (attempted : List Path)
    (progress : LoadProgress) (loading : IsLoading source attempted progress)
    (enough : Suffices source waves attempted progress) :
    Waves source attempted progress
      (LoadProgress.loadLibraries source waves attempted progress) := by
  induction waves generalizing attempted progress with
  | zero => exact absurd enough.1 (Nat.lt_irrefl 0)
  | succ waves ih =>
    rw [LoadProgress.loadLibraries]
    split
    next reached => exact .cancelled reached
    next going =>
      dsimp only
      split
      next nothing => exact .settled (Bool.not_eq_true _ ▸ going) nothing
      next something =>
        refine .wave (Bool.not_eq_true _ ▸ going) something (ih _ _ (loading.wave _ ?_) ?_)
        · exact fun path member =>
            loading.isTrue.normalize_of_target path ((unseen_sublist _ _).subset member)
        · exact enough.wave loading.isTrue something

/-- Unless the load is cancelled, the waves end when all that is bound was attempted. -/
theorem Waves.settles {source : LoadSource} {attempted : List Path}
    {progress final : LoadProgress} (waves : Waves source attempted progress final)
    (loading : IsLoading source attempted progress) (going : final.isCancelled source = false) :
    ∃ tried, IsLoading source tried final ∧ unseen tried final.targets = [] := by
  induction waves with
  | cancelled reached =>
    -- Marking the snapshot does not add an event.
    have ended : _ = true := reached
    exact absurd (ended.symm.trans going) Bool.noConfusion
  | settled _ nothing => exact ⟨_, loading, nothing⟩
  | wave _ _ _ ih =>
    refine ih (loading.wave _ fun path member => ?_) going
    exact loading.isTrue.normalize_of_target path ((unseen_sublist _ _).subset member)

theorem Waves.components_eq {source : LoadSource} {attempted : List Path}
    {progress final : LoadProgress} (waves : Waves source attempted progress final) :
    final.snapshot.components = progress.snapshot.components := by
  induction waves with
  | cancelled _ => rfl
  | settled _ _ => rfl
  | wave _ _ _ ih =>
    exact ih.trans (LoadProgress.view_loadWave _ _ (·.components) _ _ (fun _ _ => rfl)
      Snapshot.absorbModule_components)

/-! ### From the roots to the waves -/

theorem loadRoots_modules (source : LoadSource) (progress final : LoadProgress)
    (roots : List Path) (complete : progress.loadRoots source roots = .complete final) :
    final.snapshot.modules = progress.snapshot.modules := by
  refine LoadProgress.keeps_of_complete
    (motive := fun later => later.snapshot.modules = progress.snapshot.modules) source ?_ rfl
    complete
  intro later root file reader _ same
  exact (view_absorb (·.modules) (fun _ _ _ _ _ => rfl) _ _ _ _).trans same

/-- Components are declared with normal forms. -/
theorem IsTrue.normalize_of_declared {source : LoadSource} {progress : LoadProgress}
    (isTrue : IsTrue source progress) (declaration : Snapshot.Declaration)
    (member : declaration ∈ progress.snapshot.declaredComponents) :
    declaration.path.normalize = declaration.path := by
  -- Either kind of declaration takes its path from the target of a symbol.
  obtain ⟨symbol, listed, target⟩ : ∃ symbol ∈ progress.snapshot.symbols.ofKind .component,
      symbol.target = some declaration.path := by
    rcases Registry.mem_addAllNew _ _ _ declaration member with platform | flash
    · obtain ⟨symbol, listed, declared⟩ := List.mem_flatMap.mp platform
      obtain ⟨target, aimed, built⟩ := List.mem_flatMap.mp declared
      obtain ⟨_, _, rfl⟩ := List.mem_map.mp built
      exact ⟨symbol, listed, Option.mem_toList.mp aimed⟩
    · obtain ⟨symbol, listed, declared⟩ := List.mem_filterMap.mp flash
      obtain ⟨target, aimed, built⟩ := Option.bind_eq_some_iff.mp declared
      split at built
      · cases built
      · cases built
        exact ⟨symbol, listed, aimed⟩
  have held := progress.snapshot.symbols.mem_slots_of_collect _ symbol listed
  exact (isTrue.reflects.isSound _ _ _ _ _ symbol held).target _ target

section Components

variable {source : LoadSource} {progress : LoadProgress}

theorem IsTrue.normalize_of_component (isTrue : IsTrue source progress) (component : Component)
    (member : component ∈ (progress.loadComponents source).1.snapshot.components) :
    component.path.normalize = component.path := by
  have built := (Registry.mem_addAllNew _ _ _ component member).resolve_left List.not_mem_nil
  obtain ⟨declaration, declared, listed⟩ := List.mem_flatMap.mp built
  obtain ⟨_, _, rfl⟩ := List.mem_map.mp listed
  exact isTrue.normalize_of_declared declaration declared

theorem IsTrue.normalize_of_attempted (isTrue : IsTrue source progress) (path : Path)
    (member : path ∈ (progress.loadComponents source).2) : path.normalize = path := by
  obtain ⟨declaration, declared, rfl⟩ := List.mem_map.mp ((unseen_sublist _ _).subset member)
  exact isTrue.normalize_of_declared declaration declared

theorem IsTrue.isLoading (isTrue : IsTrue source progress) :
    IsLoading source (progress.loadComponents source).2 (progress.loadComponents source).1 := by
  have begun : IsLoading source [] progress :=
    ⟨isTrue, (fun _ absent => nomatch absent), fun _ _ absent => nomatch absent⟩
  have waved := begun.wave (progress.loadComponents source).2 isTrue.normalize_of_attempted
  rw [List.append_nil] at waved
  exact ⟨isTrue.loadComponents, waved.normal, waved.loaded⟩

/-- Without modules nothing is bound. -/
theorem targets_of_bare (bare : progress.snapshot.modules = []) : progress.targets = [] := by
  have nothing : progress.snapshot.closures = [] := by
    refine List.flatMap_eq_nil_iff.mpr fun component _ => ?_
    rw [bare]
    exact (visits_libraryClosure _ [] component.context component.path).eq_nil_of_unloaded
  rw [LoadProgress.targets, nothing]
  rfl

theorem FileSystem.fileCount_le_pathCount (system : FileSystem) :
    system.fileCount ≤ system.pathCount := by
  cases system with
  | memory files => exact Nat.le_add_right _ _
  | disk files =>
    rw [fileCount, pathCount]
    omega

/-- After the components, one wave more than there are paths is enough. -/
theorem IsTrue.suffices (isTrue : IsTrue source progress) (bare : progress.snapshot.modules = []) :
    Suffices source (source.system.pathCount + 1) (progress.loadComponents source).2
      (progress.loadComponents source).1 := by
  refine ⟨Nat.succ_pos _, ?_⟩
  by_cases unreadable : ∀ path ∈ (progress.loadComponents source).2,
      ∃ failure, source.system.read path.normalize = .error failure
  · obtain ⟨files, same⟩ := progress.loadWave_of_unreadable source _ unreadable
    have stillBare : (progress.loadComponents source).1.snapshot.modules = [] :=
      (congrArg Snapshot.modules same).trans bare
    rw [targets_of_bare stillBare]
    exact .inl rfl
  · -- A component's module that can be read is one of the files, so one wave is to spare.
    have less := pathsLeft_wave source.system _ [] isTrue.normalize_of_attempted
      (fun _ _ => List.not_mem_nil) unreadable
    rw [List.append_nil, pathsLeft_nil] at less
    have bound := source.system.fileCount_le_pathCount
    exact .inr (by omega)

end Components

/-! ### Closed bindings -/

/-- The bindings of a snapshot leave nothing out and add nothing. -/
structure Snapshot.IsClosed (system : FileSystem) (snapshot : Snapshot) : Prop where
  /-- Every class of a component's module is bound. -/
  component : ∀ component ∈ snapshot.components,
    Serves snapshot.modules snapshot.bindings component.context component.path
  /-- A module that a class is bound to cannot be read, or it is loaded and its own classes
  are bound. -/
  target : ∀ binding ∈ snapshot.bindings, ∀ target, binding.target? = some target →
    (∃ failure, system.read target = .error failure) ∨
      (∃ info, findModule? snapshot.modules target = some info) ∧
        Serves snapshot.modules snapshot.bindings binding.context target
  /-- A class is bound for the module of a component or for one that another class is bound
  to. -/
  consumer : ∀ binding ∈ snapshot.bindings,
    (∃ component ∈ snapshot.components, component.context = binding.context ∧
      component.path = binding.consumer) ∨
    ∃ other ∈ snapshot.bindings, other ≠ binding ∧ other.context = binding.context ∧
      other.target? = some binding.consumer

/-- Closures are closed once all that they bind was attempted. -/
theorem IsLoading.isClosed {source : LoadSource} {tried : List Path} {progress : LoadProgress}
    (loading : IsLoading source tried progress) (going : progress.isCancelled source = false)
    (nothing : unseen tried progress.targets = [])
    (normal : ∀ component ∈ progress.snapshot.components,
      component.path.normalize = component.path) :
    { progress.snapshot with bindings := progress.snapshot.closures }.IsClosed source.system := by
  let snapshot := progress.snapshot
  have visits (component : Component) :=
    visits_libraryClosure snapshot.symbols snapshot.modules component.context component.path
  have part (component : Component) (member : component ∈ snapshot.components) :
      libraryClosure snapshot.symbols snapshot.modules component.path component.context ⊆
        snapshot.closures :=
    fun _ made => List.mem_flatMap.mpr ⟨component, member, made⟩
  have served (component : Component) (member : component ∈ snapshot.components) :
      Serves snapshot.modules snapshot.closures component.context component.path :=
    ((visits component).serves component.path (.head _)).mono (part component member)
  constructor
  · exact served
  · intro binding bound target aimed
    obtain ⟨component, member, made⟩ := List.mem_flatMap.mp bound
    have context := ((visits component).made_for binding made).1
    have serves : Serves snapshot.modules snapshot.closures binding.context target := by
      rw [context]
      rcases (visits component).seen_or_serves (loading.isTrue.normalize_of_resolve _)
        (fun path own => List.mem_singleton.mp own ▸ normal component member) binding made target
        aimed with own | serves
      · rw [List.mem_singleton.mp own]
        exact served component member
      · exact serves.mono (part component member)
    -- Nothing is left to attempt, so the target was attempted.
    have listed : target ∈ progress.targets := List.mem_filterMap.mpr ⟨binding, bound, aimed⟩
    have attempted : target ∈ tried := by
      refine (mem_seen_or_unseen tried _ target listed fun path either => ?_).resolve_right ?_
      · exact (List.mem_append.mp either).elim (loading.isTrue.normalize_of_target path)
          (loading.normal path)
      · rw [nothing]
        exact List.not_mem_nil
    exact (loading.loaded going target attempted).imp_right fun found =>
      ⟨snapshot.findModule_of_mem target found, serves⟩
  · intro binding bound
    obtain ⟨component, member, made⟩ := List.mem_flatMap.mp bound
    have context := ((visits component).made_for binding made).1
    rcases (visits component).queued_or_bound (List.Subset.refl _) binding made with
      own | ⟨other, madeToo, told⟩
    · exact .inl ⟨component, member, context.symm, (List.mem_singleton.mp own).symm⟩
    · exact .inr ⟨other, part component member madeToo, told⟩

/-- The parts of a snapshot that say what is bound. -/
def Snapshot.libraries (snapshot : Snapshot) :
    List Component × List ModuleInfo × List LibraryBinding :=
  (snapshot.components, snapshot.modules, snapshot.bindings)

theorem Snapshot.IsClosed.congr {system : FileSystem} {snapshot other : Snapshot}
    (closed : snapshot.IsClosed system) (same : other.libraries = snapshot.libraries) :
    other.IsClosed system := by
  obtain ⟨components, rest⟩ := Prod.mk.inj same
  obtain ⟨modules, bindings⟩ := Prod.mk.inj rest
  constructor
  · rw [components, modules, bindings]
    exact closed.component
  · rw [modules, bindings]
    exact closed.target
  · rw [components, bindings]
    exact closed.consumer

theorem Snapshot.libraries_absorbPackage (snapshot : Snapshot) (unit : LoadUnit) :
    (snapshot.absorbPackage unit).libraries = snapshot.libraries :=
  view_absorb Snapshot.libraries (fun _ _ _ _ _ => rfl) _ _ _ _

/-- Packages do not change what is bound. -/
theorem libraries_loadPackages (source : LoadSource) (progress : LoadProgress)
    (uncancelled : (progress.loadPackages source).snapshot.cancelled = false) :
    progress.isCancelled source = false ∧
      (progress.loadPackages source).snapshot.libraries = progress.snapshot.libraries := by
  unfold LoadProgress.loadPackages at uncancelled ⊢
  split at uncancelled
  · cases uncancelled
  next going =>
    rw [if_neg going]
    exact ⟨Bool.not_eq_true _ ▸ going, progress.view_loadWave source Snapshot.libraries _ _
      (fun _ _ => rfl) Snapshot.libraries_absorbPackage⟩

/-- What the waves leave is closed once it is bound, whatever packages are read afterwards. -/
theorem Waves.isClosed {source : LoadSource} {attempted : List Path}
    {progress final : LoadProgress} (waves : Waves source attempted progress final)
    (loading : IsLoading source attempted progress)
    (normal : ∀ component ∈ progress.snapshot.components,
      component.path.normalize = component.path)
    (uncancelled : (final.bindLibraries.loadPackages source).snapshot.cancelled = false) :
    (final.bindLibraries.loadPackages source).snapshot.IsClosed source.system := by
  have ⟨going, kept⟩ := libraries_loadPackages source final.bindLibraries uncancelled
  obtain ⟨tried, settled, nothing⟩ := waves.settles loading going
  rw [← waves.components_eq] at normal
  exact (settled.isClosed going nothing normal).congr kept

/-! ### All loops of a load -/

/-- Every loop of a load ends by itself: what the load does within its bounds is what it does
without them. -/
structure LoadReport.Ends (source : LoadSource) (generation : Nat) (roots : List Path) :
    Prop where
  /-- Files that include files. -/
  units : ∀ files path, ∃ result,
    Reads source.system path none .initial (.new source.config.context files) result ∧
      LoadUnit.read source.config source.system files path =
        result.map fun (file, _, reader) => (file, reader)
  /-- Modules that bind modules. -/
  closures : ∀ (snapshot : Snapshot) (component : Component),
    Visits snapshot.symbols snapshot.modules component.context [component.path] [component.path]
      (libraryClosure snapshot.symbols snapshot.modules component.path component.context)
  /-- Waves of libraries. -/
  waves : ∀ progress,
    (LoadProgress.start generation roots).loadRoots source roots = .complete progress →
      ∃ final,
        Waves source (progress.loadComponents source).2 (progress.loadComponents source).1 final ∧
          progress.loadModules source = final.bindLibraries.loadPackages source

theorem LoadUnit.reads_read (config : Configuration) (system : FileSystem) (files : FileSet)
    (path : Path) : ∃ result,
      Reads system path none .initial (.new config.context files) result ∧
        LoadUnit.read config system files path =
          result.map fun (file, _, reader) => (file, reader) := by
  refine ⟨_, Reader.reads_readFile system path none .initial (.new config.context files) rfl, ?_⟩
  unfold LoadUnit.read Reader.read
  split
  next failed =>
    rw [failed]
    rfl
  next returned =>
    rw [returned]
    rfl

/-- The roots leave a progress from which libraries are read. -/
theorem isTrue_of_complete (source : LoadSource) (generation : Nat) (roots : List Path)
    (progress : LoadProgress)
    (complete : (LoadProgress.start generation roots).loadRoots source roots =
      .complete progress) :
    IsTrue source progress ∧ progress.snapshot.modules = [] := by
  have begun : IsTrue source (.start generation roots) := ⟨rfl, .new _⟩
  have isTrue := loadRoots_isTrue source _ roots begun
  rw [complete] at isTrue
  exact ⟨isTrue, loadRoots_modules source _ progress roots complete⟩

/-- A load ends, and unless it is cancelled its bindings are closed. -/
theorem LoadReport.build_isClosed (source : LoadSource) (generation : Nat) (roots : List Path) :
    Ends source generation roots ∧
      ∀ snapshot, (build source generation roots).result = .ok snapshot →
        snapshot.cancelled = false → snapshot.IsClosed source.system := by
  constructor
  · refine ⟨LoadUnit.reads_read _ _, fun snapshot component => visits_libraryClosure _ _ _ _, ?_⟩
    intro progress complete
    have ⟨rooted, bare⟩ := isTrue_of_complete source generation roots progress complete
    exact ⟨_, waves_loadLibraries source _ _ _ rooted.isLoading (rooted.suffices bare), rfl⟩
  · intro snapshot published uncancelled
    obtain ⟨progress, complete, _, rfl⟩ :=
      complete_of_uncancelled source generation roots snapshot published uncancelled
    have ⟨rooted, bare⟩ := isTrue_of_complete source generation roots progress complete
    have waves := waves_loadLibraries source _ _ _ rooted.isLoading (rooted.suffices bare)
    exact waves.isClosed rooted.isLoading rooted.normalize_of_component uncancelled

/-! ### Libraries that need each other -/

/-- A platform with two libraries that need each other, and a class that is bound to a
directory. -/
def mutualSource : LoadSource where
  config := { Configuration.initial with workspaceRoot := ⟨"/ws"⟩ }
  system := .memory (.ofList [
    (⟨"/ws/P.dsc"⟩, "[LibraryClasses]\nA|A.inf\nB|B.inf\nC|C\n[Components]\nM.inf\n"),
    (⟨"/ws/M.inf"⟩, "[LibraryClasses]\nA\n"), (⟨"/ws/A.inf"⟩, "[LibraryClasses]\nB\nC\n"),
    (⟨"/ws/B.inf"⟩, "[LibraryClasses]\nA\n"), (⟨"/ws/C/X.inf"⟩, "")])
  cancellation := .never

theorem mutualSource_isClosed :
    ∃ snapshot, (LoadReport.build mutualSource 1 [⟨"/ws/P.dsc"⟩]).result = .ok snapshot ∧
      snapshot.cancelled = false ∧
      snapshot.bindings.map (fun binding => (binding.consumer.text, binding.target?.map (·.text))) =
        [("/ws/M.inf", some "/ws/A.inf"), ("/ws/A.inf", some "/ws/B.inf"),
          ("/ws/A.inf", some "/ws/C"), ("/ws/B.inf", some "/ws/A.inf")] ∧
      snapshot.IsClosed mutualSource.system := by
  have loaded : (LoadReport.build mutualSource 1 [⟨"/ws/P.dsc"⟩]).result.toOption.any
      (fun snapshot => snapshot.cancelled = false ∧
        snapshot.bindings.map (fun binding =>
          (binding.consumer.text, binding.target?.map (·.text))) =
        [("/ws/M.inf", some "/ws/A.inf"), ("/ws/A.inf", some "/ws/B.inf"),
          ("/ws/A.inf", some "/ws/C"), ("/ws/B.inf", some "/ws/A.inf")]) = true := by
    decide +kernel
  cases published : (LoadReport.build mutualSource 1 [⟨"/ws/P.dsc"⟩]).result with
  | error failure =>
    rw [published] at loaded
    cases loaded
  | ok snapshot =>
    rw [published] at loaded
    have ⟨uncancelled, bindings⟩ := of_decide_eq_true loaded
    exact ⟨snapshot, rfl, uncancelled, bindings,
      (LoadReport.build_isClosed _ _ _).2 snapshot published uncancelled⟩

end FirmwareWorkspace
