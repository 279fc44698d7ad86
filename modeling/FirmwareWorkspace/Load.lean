import FirmwareWorkspace.Snapshot

/-!
# Loading a workspace

A load reads the root files, then the modules of their components, then in waves
the library modules that these bind, and at last the packages of all modules. It
notes an event for every root and every unit, and it looks at the cancellation
between them.

Every wave of libraries attempts a path that was not attempted before and that
exists in the file system. The number of existing paths bounds the waves.
-/
namespace FirmwareWorkspace

inductive LoadError where
  | rootNotFound (path : Path)
  | rootUnreadable (path : Path) (failure : ReadFailure)
  deriving DecidableEq, Repr

def LoadError.message : LoadError → String
  | rootNotFound path => "root build description not found: " ++ path.text
  | rootUnreadable path failure =>
    "cannot read root build description " ++ path.text ++ ": " ++ failure.message

inductive LoadEvent where
  | started (generation roots : Nat)
  | rootProcessed (path : Path) (files : Nat)
  | moduleProcessed (path : Path)
  | finished (generation files symbols diagnostics : Nat) (cancelled : Bool)
  | failed (generation : Nat) (error : LoadError)
  deriving DecidableEq, Repr

/-- What a load has done so far. -/
structure LoadProgress where
  snapshot : Snapshot
  events : List LoadEvent
  searches : Nat
  deriving Repr, Inhabited

/-- What every step of a load reads and does not change. -/
structure LoadSource where
  config : Configuration
  system : FileSystem
  cancellation : Cancellation
  deriving DecidableEq, Repr

namespace LoadProgress

def isCancelled (progress : LoadProgress) (source : LoadSource) : Bool :=
  source.cancellation.isReached progress.events.length

def emit (progress : LoadProgress) (event : LoadEvent) : LoadProgress :=
  { progress with events := progress.events ++ [event] }

def cancel (progress : LoadProgress) : LoadProgress :=
  { progress with snapshot := { progress.snapshot with cancelled := true } }

/-- How the reading of the roots ends. -/
inductive RootsOutcome where
  | complete (progress : LoadProgress)
  | cancelled (progress : LoadProgress)
  | failed (progress : LoadProgress) (error : LoadError)
  deriving Repr

def absorbRoot (progress : LoadProgress) (root : Path) (file : FileId) (reader : Reader) :
    LoadProgress :=
  let progress := progress.emit (.rootProcessed root.normalize reader.documents.length)
  { progress with
    snapshot := progress.snapshot.absorbRoot root.normalize file reader
    searches := progress.searches + reader.resolver.searches }

/-- Read the root files, up to a cancellation or a root that cannot be read. -/
def loadRoots (source : LoadSource) (progress : LoadProgress) : List Path → RootsOutcome
  | [] => .complete progress
  | root :: rest =>
    if progress.isCancelled source then .cancelled progress
    else
      match LoadUnit.read source.config source.system progress.snapshot.files root with
      | .error failure => .failed progress (.rootUnreadable root failure)
      | .ok (file, reader) => loadRoots source (progress.absorbRoot root file reader) rest

/-- Read units and take them in by `absorb`. -/
def loadWave (source : LoadSource) (progress : LoadProgress) (paths : List Path)
    (absorb : Snapshot → LoadUnit → Snapshot) : LoadProgress :=
  let loaded := loadUnits source.config source.system source.cancellation progress.events.length
    progress.snapshot.files paths
  { snapshot := loaded.units.foldl absorb { progress.snapshot with files := loaded.files }
    events := progress.events ++ loaded.started.map .moduleProcessed
    searches := progress.searches + loaded.searches }

/-- Read the modules of the declared components. -/
def loadComponents (source : LoadSource) (progress : LoadProgress) : LoadProgress × List Path :=
  let declared := progress.snapshot.declaredComponents
  let wave := unseen [] (declared.map (·.path))
  let progress := progress.loadWave source wave Snapshot.absorbModule
  let components := progress.snapshot.componentContexts declared
  ({ progress with snapshot := { progress.snapshot with components := components } }, wave)

/-- Read library modules wave by wave until no binding leads to a module that was
not attempted, or the load is cancelled. -/
def loadLibraries (source : LoadSource) : Nat → List Path → LoadProgress → LoadProgress
  | 0, _, progress => progress
  | waves + 1, attempted, progress =>
    if progress.isCancelled source then progress.cancel
    else
      let targets := progress.snapshot.closures.filterMap LibraryBinding.target?
      match unseen attempted targets with
      | [] => progress
      | wave =>
        loadLibraries source waves (wave ++ attempted)
          (progress.loadWave source wave Snapshot.absorbModule)

/-- Settle the bindings of all components and report those that failed. -/
def bindLibraries (progress : LoadProgress) : LoadProgress :=
  let bindings := progress.snapshot.closures
  { progress with
    snapshot := { progress.snapshot with
      bindings := bindings
      diagnostics := progress.snapshot.diagnostics ++ Diagnostic.ofBindings bindings } }

/-- Read the packages that the modules name. -/
def loadPackages (source : LoadSource) (progress : LoadProgress) : LoadProgress :=
  if progress.isCancelled source then progress.cancel
  else
    let paths := unseen [] (progress.snapshot.modules.flatMap (·.packages))
    let progress := progress.loadWave source paths Snapshot.absorbPackage
    { progress with
      snapshot := { progress.snapshot with cancelled := progress.isCancelled source } }

/-- Everything after the roots. -/
def loadModules (source : LoadSource) (progress : LoadProgress) : LoadProgress :=
  let (progress, attempted) := progress.loadComponents source
  let progress := loadLibraries source (source.system.pathCount + 1) attempted progress
  progress.bindLibraries.loadPackages source

end LoadProgress

/-- The outcome of a load: its events, the snapshot or error, and the number of searches. -/
structure LoadReport where
  events : List LoadEvent
  result : Except LoadError Snapshot
  searches : Nat

namespace LoadReport

def finished (progress : LoadProgress) : LoadReport :=
  let snapshot := progress.snapshot
  { events := progress.events ++ [.finished snapshot.generation snapshot.documents.length
      snapshot.symbols.size snapshot.diagnostics.length snapshot.cancelled]
    result := .ok snapshot
    searches := progress.searches }

/-- Load from roots that exist. -/
def build (source : LoadSource) (generation : Nat) (roots : List Path) : LoadReport :=
  let start : LoadProgress := ⟨.new generation, [.started generation roots.length], 0⟩
  match start.loadRoots source roots with
  | .failed progress error =>
    ⟨progress.events ++ [.failed generation error], .error error, progress.searches⟩
  | .cancelled progress => finished progress.cancel
  | .complete progress => finished (progress.loadModules source)

end LoadReport

/-- A configured workspace with the snapshot that was published last. -/
structure Workspace where
  config : Configuration
  current : Snapshot
  /-- Number of the last load that was started. -/
  generation : Nat
  searches : Nat
  deriving Repr

namespace Workspace

def new (config : Configuration) : Workspace :=
  ⟨config, .new 0, 0, 0⟩

/-- Load the workspace. A missing root stops the load before it starts. A load
that fails keeps the snapshot; any other, also a cancelled one, publishes its own. -/
def load (workspace : Workspace) (system : FileSystem) (cancellation : Cancellation) :
    LoadReport × Workspace :=
  let roots := workspace.config.rootPaths
  match roots.find? fun root => !system.contains root with
  | some missing => (⟨[], .error (.rootNotFound missing), 0⟩, workspace)
  | none =>
    let generation := workspace.generation + 1
    let report := LoadReport.build ⟨workspace.config, system, cancellation⟩ generation roots
    (report,
      { workspace with
        generation := generation
        searches := workspace.searches + report.searches
        current := match report.result with
          | .ok snapshot => snapshot
          | .error _ => workspace.current })

end Workspace

end FirmwareWorkspace
