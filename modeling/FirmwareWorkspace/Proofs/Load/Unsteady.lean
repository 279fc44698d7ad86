import FirmwareWorkspace.Proofs.Load.Fixpoint

/-!
# Loads while files change

Files may change while a load goes on, also in the middle of a unit, and a cancellation may come
at any time. The relations here follow a load stage by stage and leave open what it finds: every
look for a root, every reading of a unit and every look at the cancellation may have any answer,
and the units of a wave may be read side by side.

Main result: `Unsteady.Load.of_load`. A load over files that stay as they are, cancelled after
some number of events or not at all, is one of these loads.
-/
namespace FirmwareWorkspace

/-! ### The stages of a load -/

namespace LoadProgress

variable (progress : LoadProgress) (loaded : LoadedUnits)

/-- Take in units, however they were read. -/
def takeUnits (absorb : Snapshot → LoadUnit → Snapshot) : LoadProgress where
  snapshot := loaded.units.foldl absorb { progress.snapshot with files := loaded.files }
  events := progress.events ++ loaded.started.map .moduleProcessed
  searches := progress.searches + loaded.searches

/-- The modules of the declared components. -/
def componentPaths : List Path :=
  unseen [] (progress.snapshot.declaredComponents.map (·.path))

/-- Take in the modules of the declared components, and settle the components. -/
def takeComponents : LoadProgress :=
  let declared := progress.snapshot.declaredComponents
  let progress := progress.takeUnits loaded Snapshot.absorbModule
  let components := progress.snapshot.componentContexts declared
  { progress with snapshot := { progress.snapshot with components := components } }

/-- The packages that the modules name. -/
def packagePaths : List Path :=
  unseen [] (progress.snapshot.modules.flatMap (·.packages))

/-- Take in packages, and note whether the load was cancelled by then. -/
def takePackages (cancelled : Bool) : LoadProgress :=
  let progress := progress.takeUnits loaded Snapshot.absorbPackage
  { progress with snapshot := { progress.snapshot with cancelled := cancelled } }

end LoadProgress

/-- The workspace after a load that started, by its report. -/
def Workspace.settle (workspace : Workspace) (report : LoadReport) : Workspace :=
  { workspace with
    generation := workspace.generation + 1
    searches := workspace.searches + report.searches
    current := match report.result with
      | .ok snapshot => snapshot
      | .error _ => workspace.current }

namespace Unsteady

/-- What reading the units of a wave may give. -/
inductive Units : FileSet → List Path → LoadedUnits → Prop
  | done {files : FileSet} : Units files [] ⟨[], files, [], 0⟩
  /-- The load is cancelled before the unit is started. -/
  | skipped {files : FileSet} {path : Path} {rest : List Path} {loaded : LoadedUnits}
      (later : Units files rest loaded) : Units files (path :: rest) loaded
  | unreadable {files : FileSet} {path : Path} {rest : List Path} {loaded : LoadedUnits}
      (later : Units files rest loaded) :
      Units files (path :: rest) { loaded with started := path :: loaded.started }
  | read {files : FileSet} {path : Path} {rest : List Path} {loaded : LoadedUnits}
      (file : FileId) (reader : Reader) (later : Units reader.files rest loaded) :
      Units files (path :: rest)
        { loaded with
          units := .ofReader path file reader :: loaded.units
          started := path :: loaded.started
          searches := reader.resolver.searches + loaded.searches }
  /-- Units that are read side by side are told of in any order. -/
  | reordered {files : FileSet} {paths order : List Path} {loaded : LoadedUnits}
      (units : Units files paths loaded) (same : order.Perm loaded.started) :
      Units files paths { loaded with started := order }

/-- How the reading of the roots may end. -/
inductive Roots : LoadProgress → List Path → LoadProgress.RootsOutcome → Prop
  | complete {progress : LoadProgress} : Roots progress [] (.complete progress)
  | cancelled {progress : LoadProgress} {root : Path} {rest : List Path} :
      Roots progress (root :: rest) (.cancelled progress)
  | unreadable {progress : LoadProgress} {root : Path} {rest : List Path}
      (failure : ReadFailure) :
      Roots progress (root :: rest) (.failed progress (.rootUnreadable root failure))
  | read {progress : LoadProgress} {root : Path} {rest : List Path}
      {outcome : LoadProgress.RootsOutcome} (file : FileId) (reader : Reader)
      (later : Roots (progress.absorbRoot root file reader) rest outcome) :
      Roots progress (root :: rest) outcome

/-- How library modules may be read, in fewer waves than are given. -/
inductive Libraries : Nat → List Path → LoadProgress → LoadProgress → Prop
  | bounded {attempted : List Path} {progress : LoadProgress} :
      Libraries 0 attempted progress progress
  | cancelled {waves : Nat} {attempted : List Path} {progress : LoadProgress} :
      Libraries (waves + 1) attempted progress progress.cancel
  | settled {waves : Nat} {attempted : List Path} {progress : LoadProgress}
      (nothing : unseen attempted progress.targets = []) :
      Libraries (waves + 1) attempted progress progress
  | wave {waves : Nat} {attempted : List Path} {progress final : LoadProgress}
      {loaded : LoadedUnits} (something : unseen attempted progress.targets ≠ [])
      (units : Units progress.snapshot.files (unseen attempted progress.targets) loaded)
      (after : Libraries waves (unseen attempted progress.targets ++ attempted)
        (progress.takeUnits loaded Snapshot.absorbModule) final) :
      Libraries (waves + 1) attempted progress final

/-- How packages may be read. -/
inductive Packages : LoadProgress → LoadProgress → Prop
  | cancelled {progress : LoadProgress} : Packages progress progress.cancel
  | read {progress : LoadProgress} {loaded : LoadedUnits} (cancelled : Bool)
      (units : Units progress.snapshot.files progress.packagePaths loaded) :
      Packages progress (progress.takePackages loaded cancelled)

/-- How everything after the roots may be read. -/
inductive Modules : LoadProgress → LoadProgress → Prop
  | read {progress bound final : LoadProgress} {loaded : LoadedUnits} (waves : Nat)
      (components : Units progress.snapshot.files progress.componentPaths loaded)
      (libraries : Libraries waves progress.componentPaths (progress.takeComponents loaded) bound)
      (packages : Packages bound.bindLibraries final) : Modules progress final

/-- What a load that started may report. -/
inductive Report (generation : Nat) (roots : List Path) : LoadReport → Prop
  | failed {progress : LoadProgress} {error : LoadError}
      (outcome : Roots (.start generation roots) roots (.failed progress error)) :
      Report generation roots
        ⟨progress.events ++ [.failed generation error], .error error, progress.searches⟩
  | cancelled {progress : LoadProgress}
      (outcome : Roots (.start generation roots) roots (.cancelled progress)) :
      Report generation roots (.finished progress.cancel)
  | complete {progress final : LoadProgress}
      (outcome : Roots (.start generation roots) roots (.complete progress))
      (modules : Modules progress final) : Report generation roots (.finished final)

/-- What a call for a load may report, and the workspace that it may leave. -/
inductive Load (workspace : Workspace) : LoadReport → Workspace → Prop
  | missing {root : Path} (listed : root ∈ workspace.config.rootPaths) :
      Load workspace ⟨[], .error (.rootNotFound root), 0⟩ workspace
  | started {report : LoadReport}
      (built : Report (workspace.generation + 1) workspace.config.rootPaths report) :
      Load workspace report (workspace.settle report)

/-- The snapshots that calls for a load may publish one after the other, and the workspace that
they may leave. -/
inductive History (first : Workspace) : List Snapshot → Workspace → Prop
  | none : History first [] first
  | load {published : List Snapshot} {workspace next : Workspace} {report : LoadReport}
      (earlier : History first published workspace) (load : Load workspace report next) :
      History first (published ++ report.result.toOption.toList) next

/-! ### Loads over files that stay as they are -/

theorem Units.nothing (files : FileSet) (paths : List Path) :
    Units files paths ⟨[], files, [], 0⟩ := by
  induction paths with
  | nil => exact .done
  | cons path rest ih => exact .skipped ih

theorem Units.of_loadUnits (config : Configuration) (system : FileSystem)
    (cancellation : Cancellation) (notifications : Nat) (files : FileSet) (paths : List Path) :
    Units files paths (loadUnits config system cancellation notifications files paths) := by
  induction paths generalizing notifications files with
  | nil => exact .done
  | cons path rest ih =>
    rw [loadUnits]
    split
    · -- From the cancellation on, all units are skipped.
      exact .nothing files (path :: rest)
    · split
      · exact .unreadable (ih _ _)
      next file reader _ => exact .read file reader (ih _ _)

section Stages

variable (source : LoadSource) (progress : LoadProgress)

theorem Roots.of_loadRoots (roots : List Path) :
    Roots progress roots (progress.loadRoots source roots) := by
  induction roots generalizing progress with
  | nil => exact .complete
  | cons root rest ih =>
    rw [LoadProgress.loadRoots]
    split
    · exact .cancelled
    · split
      next failure _ => exact .unreadable failure
      next file reader _ => exact .read file reader (ih _)

theorem Libraries.of_loadLibraries (waves : Nat) (attempted : List Path) :
    Libraries waves attempted progress
      (LoadProgress.loadLibraries source waves attempted progress) := by
  induction waves generalizing attempted progress with
  | zero => exact .bounded
  | succ waves ih =>
    rw [LoadProgress.loadLibraries]
    split
    · exact .cancelled
    · dsimp only
      split
      next nothing => exact .settled nothing
      next something => exact .wave something (Units.of_loadUnits _ _ _ _ _ _) (ih _ _)

theorem Packages.of_loadPackages : Packages progress (progress.loadPackages source) := by
  rw [LoadProgress.loadPackages]
  split
  · exact .cancelled
  · exact .read _ (Units.of_loadUnits _ _ _ _ _ _)

theorem Modules.of_loadModules : Modules progress (progress.loadModules source) :=
  .read (source.system.pathCount + 1) (Units.of_loadUnits _ _ _ _ _ _)
    (Libraries.of_loadLibraries source _ _ _) (Packages.of_loadPackages source _)

end Stages

theorem Report.of_build (source : LoadSource) (generation : Nat) (roots : List Path) :
    Report generation roots (LoadReport.build source generation roots) := by
  have rooted := Roots.of_loadRoots source (.start generation roots) roots
  cases outcome : (LoadProgress.start generation roots).loadRoots source roots with
  | failed progress error =>
    rw [LoadReport.build_of_failed _ _ _ _ _ outcome]
    exact .failed (outcome ▸ rooted)
  | cancelled progress =>
    rw [LoadReport.build_of_cancelled _ _ _ _ outcome]
    exact .cancelled (outcome ▸ rooted)
  | complete progress =>
    rw [LoadReport.build_of_complete _ _ _ _ outcome]
    exact .complete (outcome ▸ rooted) (Modules.of_loadModules source progress)

theorem Load.of_load (workspace : Workspace) (system : FileSystem)
    (cancellation : Cancellation) :
    Load workspace (workspace.load system cancellation).1
      (workspace.load system cancellation).2 := by
  unfold Workspace.load
  dsimp only
  split
  next missing => exact .missing (List.mem_of_find?_eq_some missing)
  · exact .started (Report.of_build _ _ _)

end Unsteady

end FirmwareWorkspace
