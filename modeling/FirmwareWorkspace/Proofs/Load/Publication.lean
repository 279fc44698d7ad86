import FirmwareWorkspace.Proofs.Load.Unsteady

/-!
# What loads publish

A load works on a snapshot of its own. It tells of its start, of every unit that it reads and
of its end, and only a load that does not fail replaces the snapshot of the workspace.

Main result: `Unsteady.loads_publish` gives the protocol of one load after any history of loads,
with files that change and cancellations that come between the loads and while they go on. That
snapshots are numbered upwards rests on two facts: no stage of a load changes the number that
its snapshot began with, and every load that starts takes a new number.
-/
namespace FirmwareWorkspace

/-! ### How a load gets on -/

/-- A load got on from one progress to another: it told of units only, and its number stayed. -/
structure LoadProgress.Advances (progress next : LoadProgress) : Prop where
  events : ∃ told, next.events = progress.events ++ told ∧ ∀ event ∈ told, event.unit?.isSome
  generation : next.snapshot.generation = progress.snapshot.generation

namespace LoadProgress.Advances

variable {progress middle next : LoadProgress}

theorem silent (events : next.events = progress.events)
    (generation : next.snapshot.generation = progress.snapshot.generation) :
    Advances progress next :=
  ⟨⟨[], by rw [events, List.append_nil], fun _ absent => nomatch absent⟩, generation⟩

theorem refl (progress : LoadProgress) : Advances progress progress := silent rfl rfl

theorem trans (first : Advances progress middle) (second : Advances middle next) :
    Advances progress next := by
  obtain ⟨before, told, units⟩ := first.events
  obtain ⟨after, toldToo, unitsToo⟩ := second.events
  refine ⟨⟨before ++ after, ?_, fun event member => ?_⟩,
    second.generation.trans first.generation⟩
  · rw [toldToo, told, List.append_assoc]
  · exact (List.mem_append.mp member).elim (units event) (unitsToo event)

theorem prefix_events (advances : Advances progress next) : progress.events <+: next.events := by
  obtain ⟨told, added, _⟩ := advances.events
  exact ⟨told, added.symm⟩

end LoadProgress.Advances

namespace Unsteady

variable {progress final : LoadProgress}

theorem advances_absorbRoot (progress : LoadProgress) (root : Path) (file : FileId)
    (reader : Reader) : progress.Advances (progress.absorbRoot root file reader) where
  events := ⟨[.rootProcessed root.normalize reader.documents.length], rfl, fun event member => by
    rw [List.mem_singleton.mp member]
    rfl⟩
  generation := view_absorb (·.generation) (fun _ _ _ _ _ => rfl) _ _ _ _

theorem advances_takeUnits (progress : LoadProgress) (loaded : LoadedUnits)
    (absorb : Snapshot → LoadUnit → Snapshot)
    (kept : ∀ snapshot unit, (absorb snapshot unit).generation = snapshot.generation) :
    progress.Advances (progress.takeUnits loaded absorb) where
  events := ⟨_, rfl, fun event member => by
    obtain ⟨path, _, rfl⟩ := List.mem_map.mp member
    rfl⟩
  generation := view_foldl (·.generation) absorb kept _ _

theorem advances_takeModules (progress : LoadProgress) (loaded : LoadedUnits) :
    progress.Advances (progress.takeUnits loaded Snapshot.absorbModule) :=
  advances_takeUnits progress loaded _ fun _ _ =>
    view_absorb (·.generation) (fun _ _ _ _ _ => rfl) _ _ _ _

theorem advances_takeComponents (progress : LoadProgress) (loaded : LoadedUnits) :
    progress.Advances (progress.takeComponents loaded) :=
  (advances_takeModules progress loaded).trans (.silent rfl rfl)

theorem advances_takePackages (progress : LoadProgress) (loaded : LoadedUnits)
    (cancelled : Bool) : progress.Advances (progress.takePackages loaded cancelled) := by
  refine (advances_takeUnits progress loaded Snapshot.absorbPackage fun _ _ => ?_).trans
    (.silent rfl rfl)
  exact view_absorb (·.generation) (fun _ _ _ _ _ => rfl) _ _ _ _

theorem advances_bindLibraries (progress : LoadProgress) :
    progress.Advances progress.bindLibraries := .silent rfl rfl

theorem Libraries.advances {waves : Nat} {attempted : List Path}
    (libraries : Libraries waves attempted progress final) : progress.Advances final := by
  induction libraries with
  | bounded => exact .refl _
  | cancelled => exact .silent rfl rfl
  | settled _ => exact .refl _
  | wave _ _ _ ih => exact (advances_takeModules _ _).trans ih

theorem Packages.advances (packages : Packages progress final) : progress.Advances final := by
  cases packages with
  | cancelled => exact .silent rfl rfl
  | read cancelled _ => exact advances_takePackages progress _ cancelled

theorem Modules.advances (modules : Modules progress final) : progress.Advances final := by
  obtain ⟨_, _, libraries, packages⟩ := modules
  have bound := (advances_takeComponents progress _).trans libraries.advances
  exact bound.trans ((advances_bindLibraries _).trans packages.advances)

theorem Roots.advances {roots : List Path} {outcome : LoadProgress.RootsOutcome}
    (rooted : Roots progress roots outcome) : progress.Advances outcome.progress := by
  induction rooted with
  | complete => exact .refl _
  | cancelled => exact .refl _
  | unreadable _ => exact .refl _
  | read file reader _ ih => exact (advances_absorbRoot _ _ file reader).trans ih

/-- Only a root that cannot be read makes a load fail. -/
theorem Roots.unreadable_of_failed {roots : List Path} {error : LoadError}
    (rooted : Roots progress roots (.failed final error)) :
    ∃ root failure, error = .rootUnreadable root failure := by
  -- The outcome becomes a variable, for the induction on how the roots were read.
  generalize failed : LoadProgress.RootsOutcome.failed final error = outcome at rooted
  induction rooted with
  | complete => cases failed
  | cancelled => cases failed
  | unreadable failure =>
    cases failed
    exact ⟨_, failure, rfl⟩
  | read _ _ _ ih => exact ih failed

end Unsteady

namespace LoadProgress

variable (source : LoadSource) (progress : LoadProgress)

theorem advances_loadLibraries (waves : Nat) (attempted : List Path) :
    progress.Advances (loadLibraries source waves attempted progress) :=
  (Unsteady.Libraries.of_loadLibraries source progress waves attempted).advances

theorem advances_loadPackages : progress.Advances (progress.loadPackages source) :=
  (Unsteady.Packages.of_loadPackages source progress).advances

theorem advances_loadModules : progress.Advances (progress.loadModules source) :=
  (Unsteady.Modules.of_loadModules source progress).advances

theorem advances_loadRoots (roots : List Path) :
    progress.Advances (progress.loadRoots source roots).progress :=
  (Unsteady.Roots.of_loadRoots source progress roots).advances

end LoadProgress

/-! ### How a load ends -/

namespace LoadReport

/-- The event that tells how a load ended. -/
def ending (report : LoadReport) (generation : Nat) : LoadEvent :=
  match report.result with
  | .ok snapshot => .finished generation snapshot.documents.length snapshot.symbols.size
      snapshot.diagnostics.length snapshot.cancelled
  | .error error => .failed generation error

/-- A load that started as it is told by its report: the start first, then the units, then
how it ended. -/
structure Tells (report : LoadReport) (generation roots : Nat) : Prop where
  events : ∃ units, (∀ event ∈ units, event.unit?.isSome) ∧
    report.events = .started generation roots :: units ++ [report.ending generation]
  generation : ∀ snapshot, report.result = .ok snapshot → snapshot.generation = generation
  unreadable : ∀ error, report.result = .error error →
    ∃ root failure, error = .rootUnreadable root failure

theorem tells_finished (generation : Nat) (roots : List Path) (progress : LoadProgress)
    (advances : (LoadProgress.start generation roots).Advances progress) :
    (finished progress).Tells generation roots.length := by
  obtain ⟨units, told, each⟩ := advances.events
  have numbered : progress.snapshot.generation = generation := advances.generation
  refine ⟨⟨units, each, ?_⟩, fun snapshot published => ?_, fun error failed => nomatch failed⟩
  · rw [finished, ending, told, numbered]
    rfl
  · cases published
    exact numbered

theorem tells_of_unsteady {generation : Nat} {roots : List Path} {report : LoadReport}
    (built : Unsteady.Report generation roots report) : report.Tells generation roots.length := by
  cases built with
  | failed outcome =>
    obtain ⟨root, failure, rfl⟩ := outcome.unreadable_of_failed
    obtain ⟨units, told, each⟩ := outcome.advances.events
    refine ⟨⟨units, each, ?_⟩, (fun snapshot published => nomatch published), fun _ failed => ?_⟩
    · exact congrArg (· ++ _) told
    · exact ⟨root, failure, (Except.error.inj failed).symm⟩
  | cancelled outcome =>
    exact tells_finished generation roots _ (outcome.advances.trans (.silent rfl rfl))
  | complete outcome modules =>
    exact tells_finished generation roots _ (outcome.advances.trans modules.advances)

theorem result_of_mem (report : LoadReport) (snapshot : Snapshot)
    (published : snapshot ∈ report.result.toOption.toList) : report.result = .ok snapshot := by
  cases result : report.result with
  | ok other =>
    rw [result] at published
    rw [List.mem_singleton.mp published]
  | error error =>
    rw [result] at published
    cases published

end LoadReport

/-! ### Histories of loads -/

/-- What a call for a load does to a workspace, by its report. -/
structure Workspace.Publishes (before : Workspace) (older : List Snapshot) (report : LoadReport)
    (after : Workspace) : Prop where
  /-- A load that fails leaves the snapshot as it was. -/
  failed : ∀ error, report.result = .error error → after.current = before.current
  /-- A load that does not fail publishes its snapshot, with a new number. -/
  succeeded : ∀ snapshot, report.result = .ok snapshot →
    after.current = snapshot ∧ ∀ earlier ∈ older, earlier.generation < snapshot.generation
  /-- A load that misses a root does not start. -/
  missing : ∀ root, report.result = .error (.rootNotFound root) →
    report.events = [] ∧ after.generation = before.generation
  /-- Any other load takes a number and tells of its start, its units and its end. -/
  started : (∀ root, report.result ≠ .error (.rootNotFound root)) →
    after.generation = before.generation + 1 ∧
      report.Tells after.generation before.config.rootPaths.length

namespace Unsteady

variable {before after : Workspace} {report : LoadReport}

/-- One call: the step of the protocol. -/
theorem Load.publishes (load : Load before report after) (older : List Snapshot)
    (numbered : ∀ earlier ∈ older, earlier.generation ≤ before.generation) :
    before.Publishes older report after := by
  cases load with
  | missing _ =>
    refine ⟨fun _ _ => rfl, (fun _ published => nomatch published), fun _ _ => ⟨rfl, rfl⟩, ?_⟩
    exact fun found => absurd rfl (found _)
  | started built =>
    have tells := LoadReport.tells_of_unsteady built
    constructor
    · intro error failed
      rw [Workspace.settle, failed]
    · intro snapshot published
      refine ⟨by rw [Workspace.settle, published], fun earlier member => ?_⟩
      rw [tells.generation snapshot published]
      exact Nat.lt_succ_of_le (numbered earlier member)
    · intro root failed
      -- A load that started fails at a root that it found, but could not read.
      obtain ⟨_, _, unreadable⟩ := tells.unreadable _ failed
      cases unreadable
    · exact fun _ => ⟨rfl, tells⟩

/-- Numbers are not taken back, and what is published has the number of its load. -/
theorem Load.numbered (load : Load before report after) :
    before.generation ≤ after.generation ∧
      ∀ snapshot, report.result = .ok snapshot → snapshot.generation = after.generation := by
  cases load with
  | missing _ => exact ⟨Nat.le_refl _, fun _ published => nomatch published⟩
  | started built =>
    exact ⟨Nat.le_succ _, (LoadReport.tells_of_unsteady built).generation⟩

/-- No published snapshot has a number that is not yet taken. -/
theorem History.numbered {first : Workspace} {published : List Snapshot}
    (history : History first published after) :
    ∀ snapshot ∈ published, snapshot.generation ≤ after.generation := by
  induction history with
  | none => exact fun _ absent => nomatch absent
  | load earlier load ih =>
    have ⟨later, own⟩ := load.numbered
    intro snapshot member
    rcases List.mem_append.mp member with before | here
    · exact Nat.le_trans (ih snapshot before) later
    · exact Nat.le_of_eq (own snapshot (LoadReport.result_of_mem _ snapshot here))

/-- Every call for a load follows the protocol, after any calls for loads and with files that
change and cancellations that come at any time before and during the call. -/
theorem loads_publish (config : Configuration) (published : List Snapshot) (before : Workspace)
    (history : History (.new config) published before) :
    (∀ system cancellation, Load before (before.load system cancellation).1
      (before.load system cancellation).2) ∧
    ∀ report after, Load before report after →
      before.Publishes (.new 0 :: published) report after := by
  refine ⟨Load.of_load before, fun report after load => load.publishes _ ?_⟩
  intro snapshot member
  rcases List.mem_cons.mp member with rfl | earlier
  · exact Nat.zero_le _
  · exact history.numbered snapshot earlier

/-- A workspace with one root file. -/
def oneRoot : Configuration :=
  { Configuration.initial with workspaceRoot := ⟨"/ws"⟩, roots := [⟨"P.dsc"⟩] }

/-- The workspace after a load that finds its root. -/
def loadedOnce : Workspace :=
  ((Workspace.new oneRoot).load (.memory (.ofList [(⟨"/ws/P.dsc"⟩, "")])) .never).2

/-- What the next load reports if the root is still there at first, and gone when it is read. -/
def vanishedRoot : LoadReport where
  events := [.started 2 1, .failed 2 (.rootUnreadable ⟨"/ws/P.dsc"⟩ ⟨⟨"/ws/P.dsc"⟩, .notFound⟩)]
  result := .error (.rootUnreadable ⟨"/ws/P.dsc"⟩ ⟨⟨"/ws/P.dsc"⟩, .notFound⟩)
  searches := 0

theorem vanishedRoot_publishes :
    ∃ published, published.map Snapshot.generation = [1] ∧
      History (.new oneRoot) published loadedOnce ∧
      Load loadedOnce vanishedRoot (loadedOnce.settle vanishedRoot) ∧
      loadedOnce.Publishes (.new 0 :: published) vanishedRoot
        (loadedOnce.settle vanishedRoot) := by
  have history : History (.new oneRoot) _ loadedOnce := .load .none (Load.of_load _ _ _)
  have number : loadedOnce.generation = 1 := by decide +kernel
  have roots : loadedOnce.config.rootPaths = [⟨"/ws/P.dsc"⟩] := by decide +kernel
  have load : Load loadedOnce vanishedRoot (loadedOnce.settle vanishedRoot) := by
    refine .started ?_
    rw [number, roots]
    exact .failed (.unreadable ⟨⟨"/ws/P.dsc"⟩, .notFound⟩)
  refine ⟨_, ?_, history, load, (loads_publish oneRoot _ _ history).2 _ _ load⟩
  decide +kernel

end Unsteady

end FirmwareWorkspace
