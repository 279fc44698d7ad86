import FirmwareWorkspace.Load

/-!
# How loads end

A load that starts reads its roots first. It fails at a root, it is cancelled in front of one, or
it goes on with the modules, and only the last two publish a snapshot.
-/
namespace FirmwareWorkspace

/-- A load before it has read anything. -/
def LoadProgress.start (generation : Nat) (roots : List Path) : LoadProgress :=
  ⟨.new generation, [.started generation roots.length], 0⟩

def LoadProgress.RootsOutcome.progress : RootsOutcome → LoadProgress
  | complete progress | cancelled progress | failed progress _ => progress

namespace LoadProgress

variable {motive : LoadProgress → Prop} (source : LoadSource)
  (absorbs : ∀ (progress : LoadProgress) root file reader,
    LoadUnit.read source.config source.system progress.snapshot.files root = .ok (file, reader) →
      motive progress → motive (progress.absorbRoot root file reader))
include absorbs

/-- What taking in a root keeps, reading the roots keeps, however it ends. -/
theorem loadRoots_keeps (progress : LoadProgress) (roots : List Path) (holds : motive progress) :
    motive (progress.loadRoots source roots).progress := by
  induction roots generalizing progress with
  | nil => exact holds
  | cons root rest ih =>
    rw [loadRoots]
    split
    · exact holds
    · split
      · exact holds
      next file reader returned => exact ih _ (absorbs progress root file reader returned holds)

theorem keeps_of_complete {progress final : LoadProgress} {roots : List Path}
    (holds : motive progress) (complete : progress.loadRoots source roots = .complete final) :
    motive final := by
  have kept := loadRoots_keeps source absorbs progress roots holds
  rwa [complete] at kept

end LoadProgress

/-! ### Reports -/

namespace LoadReport

variable (source : LoadSource) (generation : Nat) (roots : List Path) (progress : LoadProgress)

theorem build_of_failed (error : LoadError)
    (failed : (LoadProgress.start generation roots).loadRoots source roots =
      .failed progress error) :
    build source generation roots =
      ⟨progress.events ++ [.failed generation error], .error error, progress.searches⟩ := by
  rw [LoadProgress.start] at failed
  simp only [build, failed]

theorem build_of_cancelled
    (cancelled : (LoadProgress.start generation roots).loadRoots source roots =
      .cancelled progress) :
    build source generation roots = finished progress.cancel := by
  rw [LoadProgress.start] at cancelled
  simp only [build, cancelled]

theorem build_of_complete
    (complete : (LoadProgress.start generation roots).loadRoots source roots =
      .complete progress) :
    build source generation roots = finished (progress.loadModules source) := by
  rw [LoadProgress.start] at complete
  simp only [build, complete]

/-- What is published was cancelled at the roots, or all stages made it. -/
theorem finished_of_published (snapshot : Snapshot)
    (published : (build source generation roots).result = .ok snapshot) :
    (∃ progress, (LoadProgress.start generation roots).loadRoots source roots =
        .cancelled progress ∧
      build source generation roots = finished progress.cancel ∧
      snapshot = progress.cancel.snapshot) ∨
    ∃ progress, (LoadProgress.start generation roots).loadRoots source roots =
        .complete progress ∧
      build source generation roots = finished (progress.loadModules source) ∧
      snapshot = (progress.loadModules source).snapshot := by
  cases outcome : (LoadProgress.start generation roots).loadRoots source roots with
  | failed progress error =>
    rw [build_of_failed _ _ _ _ _ outcome] at published
    cases published
  | cancelled progress =>
    have built := build_of_cancelled _ _ _ _ outcome
    rw [built] at published
    exact .inl ⟨progress, rfl, built, (Except.ok.inj published).symm⟩
  | complete progress =>
    have built := build_of_complete _ _ _ _ outcome
    rw [built] at published
    exact .inr ⟨progress, rfl, built, (Except.ok.inj published).symm⟩

/-- What is published and not marked as cancelled went through all stages. -/
theorem complete_of_uncancelled (snapshot : Snapshot)
    (published : (build source generation roots).result = .ok snapshot)
    (uncancelled : snapshot.cancelled = false) :
    ∃ progress, (LoadProgress.start generation roots).loadRoots source roots =
        .complete progress ∧
      build source generation roots = finished (progress.loadModules source) ∧
      snapshot = (progress.loadModules source).snapshot := by
  refine (finished_of_published source generation roots snapshot published).resolve_left ?_
  rintro ⟨progress, _, _, rfl⟩
  cases uncancelled

end LoadReport

/-- Only a load that starts publishes. -/
theorem Workspace.load_of_published (workspace : Workspace) (system : FileSystem)
    (cancellation : Cancellation) (snapshot : Snapshot)
    (published : (workspace.load system cancellation).1.result = .ok snapshot) :
    (workspace.load system cancellation).1 =
      LoadReport.build ⟨workspace.config, system, cancellation⟩ (workspace.generation + 1)
        workspace.config.rootPaths := by
  revert published
  unfold load
  dsimp only
  split
  · intro published
    cases published
  · exact fun _ => rfl

end FirmwareWorkspace
