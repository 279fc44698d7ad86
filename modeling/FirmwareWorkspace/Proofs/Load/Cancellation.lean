import FirmwareWorkspace.Proofs.Load.Publication

/-!
# Cancelled loads

A load that is cancelled does what it would do otherwise up to the event at which it is
cancelled, and it reads no unit after that. What it publishes tells whether it was cancelled
in time, and if not, it is what is published without a cancellation.

Main result: `Workspace.load_cutShort`. The two loads are compared stage by stage. As long as
the cancellation is not reached they are the same in everything, and from then on the
cancelled one stands still while the other one goes on (`LoadProgress.CutAt`).
-/
namespace FirmwareWorkspace

/-- Loads that are cancelled as soon as they have told of `limit` events. -/
def LoadSource.cut (config : Configuration) (system : FileSystem) (limit : Nat) : LoadSource :=
  ⟨config, system, ⟨some limit⟩⟩

/-- Loads that are not cancelled. -/
def LoadSource.whole (config : Configuration) (system : FileSystem) : LoadSource :=
  ⟨config, system, .never⟩

namespace LoadProgress

/-- A load that is cancelled after `limit` events, beside the same load without a cancellation. -/
inductive CutAt (limit : Nat) (cut whole : LoadProgress) : Prop
  /-- The cancellation is not reached, and nothing differs. -/
  | going (same : cut = whole) (before : cut.events.length < limit)
  /-- The cancellation is reached. The load had to start before that could be noticed. -/
  | halted (reached : limit ≤ cut.events.length) (last : cut.events.length ≤ max limit 1)
      (behind : cut.events <+: whole.events)

variable (config : Configuration) (system : FileSystem) {limit : Nat}

theorem isCancelled_cut_iff (progress : LoadProgress) :
    progress.isCancelled (.cut config system limit) = true ↔ limit ≤ progress.events.length :=
  decide_eq_true_iff

theorem not_isCancelled_cut (progress : LoadProgress) (before : progress.events.length < limit) :
    ¬progress.isCancelled (.cut config system limit) = true := fun noticed =>
  absurd ((progress.isCancelled_cut_iff config system).mp noticed) (Nat.not_le_of_lt before)

theorem not_isCancelled_whole (progress : LoadProgress) :
    ¬progress.isCancelled (.whole config system) = true := Bool.false_ne_true

theorem CutAt.of_same (progress : LoadProgress) (within : progress.events.length ≤ max limit 1) :
    CutAt limit progress progress := by
  by_cases reached : limit ≤ progress.events.length
  · exact .halted reached within (List.prefix_refl _)
  · exact .going rfl (Nat.lt_of_not_le reached)

theorem isCancelled_congr (source : LoadSource) (progress next : LoadProgress)
    (same : next.events = progress.events) :
    next.isCancelled source = progress.isCancelled source := by
  rw [isCancelled, isCancelled, same]

/-! ### Standing still -/

section Still

variable (source : LoadSource) (progress : LoadProgress)
  (reached : progress.isCancelled source = true)

include reached

theorem events_loadWave_of_reached (paths : List Path)
    (absorb : Snapshot → LoadUnit → Snapshot) :
    (progress.loadWave source paths absorb).events = progress.events := by
  have nothing : (loadUnits source.config source.system source.cancellation
      progress.events.length progress.snapshot.files paths).started = [] := by
    cases paths with
    | nil => rfl
    | cons path rest => exact congrArg LoadedUnits.started (if_pos reached)
  rw [loadWave, nothing, List.map_nil, List.append_nil]

theorem events_loadLibraries_of_reached (waves : Nat) (attempted : List Path) :
    (loadLibraries source waves attempted progress).events = progress.events := by
  cases waves with
  | zero => rfl
  | succ waves =>
    rw [loadLibraries, if_pos reached]
    rfl

theorem events_loadPackages_of_reached :
    (progress.loadPackages source).events = progress.events := by
  rw [loadPackages, if_pos reached]
  rfl

/-- A load whose cancellation is reached tells of no module or package. -/
theorem events_loadModules_of_reached :
    (progress.loadModules source).events = progress.events := by
  have components : (progress.loadComponents source).1.events = progress.events :=
    progress.events_loadWave_of_reached source reached _ Snapshot.absorbModule
  have libraries := (events_loadLibraries_of_reached source _
    ((isCancelled_congr source _ _ components).trans reached) (source.system.pathCount + 1)
    (progress.loadComponents source).2).trans components
  have packages := events_loadPackages_of_reached source _
    ((isCancelled_congr source _ (bindLibraries _) libraries).trans reached)
  exact packages.trans libraries

end Still

/-- The snapshot is marked exactly if the cancellation is reached before the load ends. -/
theorem cancelled_loadModules (source : LoadSource) (progress : LoadProgress) :
    (progress.loadModules source).snapshot.cancelled =
      (progress.loadModules source).isCancelled source := by
  have packages (progress : LoadProgress) : (progress.loadPackages source).snapshot.cancelled =
      (progress.loadPackages source).isCancelled source := by
    rw [loadPackages]
    split
    next reached => exact reached.symm
    · rfl
  exact packages _

end LoadProgress

/-! ### Units -/

/-- Units that are read under a cancellation are those without it, up to the limit. -/
theorem loadUnits_cut (config : Configuration) (system : FileSystem) (limit : Nat)
    (notifications : Nat) (files : FileSet) (paths : List Path)
    (within : notifications ≤ limit) :
    let cut := loadUnits config system ⟨some limit⟩ notifications files paths
    let whole := loadUnits config system .never notifications files paths
    cut = whole ∧ notifications + cut.started.length < limit ∨
      notifications + cut.started.length = limit ∧ cut.started <+: whole.started := by
  induction paths generalizing notifications files with
  | nil =>
    rcases Nat.lt_or_eq_of_le within with before | reached
    · exact .inl ⟨rfl, before⟩
    · exact .inr ⟨reached, List.nil_prefix⟩
  | cons path rest ih =>
    by_cases reached : notifications = limit
    · -- Nothing more is started.
      have nothing : loadUnits config system ⟨some limit⟩ notifications files (path :: rest) =
          ⟨[], files, [], 0⟩ := if_pos (decide_eq_true (Nat.le_of_eq reached.symm))
      rw [nothing]
      exact .inr ⟨reached, List.nil_prefix⟩
    · have going : ¬Cancellation.isReached ⟨some limit⟩ notifications = true := fun early =>
        reached (Nat.le_antisymm within (of_decide_eq_true early))
      have onward : ¬Cancellation.never.isReached notifications = true := Bool.false_ne_true
      have room : notifications + 1 ≤ limit := by omega
      simp only [loadUnits, if_neg going, if_neg onward]
      -- Whether or not the unit can be read, it is started in both loads.
      cases LoadUnit.read config system files path with
      | error failure =>
        dsimp only
        rcases ih (notifications + 1) files room with ⟨same, before⟩ | ⟨full, behind⟩
        · exact .inl ⟨by rw [same], by rw [List.length_cons]; omega⟩
        · exact .inr ⟨by rw [List.length_cons]; omega, List.cons_prefix_cons.mpr ⟨rfl, behind⟩⟩
      | ok result =>
        dsimp only
        rcases ih (notifications + 1) result.2.files room with ⟨same, before⟩ | ⟨full, behind⟩
        · exact .inl ⟨by rw [same], by rw [List.length_cons]; omega⟩
        · exact .inr ⟨by rw [List.length_cons]; omega, List.cons_prefix_cons.mpr ⟨rfl, behind⟩⟩

/-! ### The stages of the two loads -/

namespace LoadProgress

variable (config : Configuration) (system : FileSystem) {limit : Nat}
  {cut whole : LoadProgress}

/-- Once the cancellation is reached, one load stands still while the other goes on. -/
theorem CutAt.halt {next later : LoadProgress} (reached : limit ≤ cut.events.length)
    (last : cut.events.length ≤ max limit 1) (behind : cut.events <+: whole.events)
    (still : next.events = cut.events) (advances : whole.Advances later) :
    CutAt limit next later := by
  rw [← still] at reached last behind
  exact .halted reached last (behind.trans advances.prefix_events)

theorem loadWave_cut (progress : LoadProgress) (before : progress.events.length < limit)
    (paths : List Path) (absorb : Snapshot → LoadUnit → Snapshot) :
    CutAt limit (progress.loadWave (.cut config system limit) paths absorb)
      (progress.loadWave (.whole config system) paths absorb) := by
  rcases loadUnits_cut config system limit progress.events.length progress.snapshot.files paths
    (Nat.le_of_lt before) with ⟨same, short⟩ | ⟨full, behind⟩
  · refine .going ?_ ?_
    · simp only [loadWave, LoadSource.cut, LoadSource.whole, same]
    · simpa [loadWave, LoadSource.cut] using short
  · have told : (progress.loadWave (.cut config system limit) paths absorb).events.length =
        limit := by
      simpa [loadWave, LoadSource.cut] using full
    refine .halted (Nat.le_of_eq told.symm) (by omega) ?_
    exact (List.prefix_append_right_inj _).mpr (behind.map _)

theorem loadComponents_cut (progress : LoadProgress) (before : progress.events.length < limit) :
    CutAt limit (progress.loadComponents (.cut config system limit)).1
      (progress.loadComponents (.whole config system)).1 := by
  rcases progress.loadWave_cut config system before
    (unseen [] (progress.snapshot.declaredComponents.map (·.path))) Snapshot.absorbModule with
    ⟨same, short⟩ | ⟨reached, last, behind⟩
  · refine .going ?_ short
    simp only [loadComponents, same]
  · exact .halted reached last behind

theorem loadLibraries_cut (waves : Nat) (attempted : List Path) (cutAt : CutAt limit cut whole) :
    CutAt limit (loadLibraries (.cut config system limit) waves attempted cut)
      (loadLibraries (.whole config system) waves attempted whole) := by
  induction waves generalizing attempted cut whole with
  | zero => exact cutAt
  | succ waves ih =>
    cases cutAt with
    | halted reached last behind =>
      have noticed := (cut.isCancelled_cut_iff config system).mpr reached
      exact .halt reached last behind (events_loadLibraries_of_reached _ cut noticed _ _)
        (advances_loadLibraries _ whole _ _)
    | going same before =>
      subst same
      have going := cut.not_isCancelled_cut config system before
      rw [loadLibraries, loadLibraries, if_neg going, if_neg (cut.not_isCancelled_whole _ _)]
      dsimp only
      split
      · exact .going rfl before
      · exact ih _ (cut.loadWave_cut config system before _ _)

theorem bindLibraries_cut (cutAt : CutAt limit cut whole) :
    CutAt limit cut.bindLibraries whole.bindLibraries := by
  cases cutAt with
  | going same before => exact .going (by rw [same]) before
  | halted reached last behind => exact .halted reached last behind

theorem loadPackages_cut (cutAt : CutAt limit cut whole) :
    CutAt limit (cut.loadPackages (.cut config system limit))
      (whole.loadPackages (.whole config system)) := by
  cases cutAt with
  | halted reached last behind =>
    have noticed := (cut.isCancelled_cut_iff config system).mpr reached
    exact .halt reached last behind (events_loadPackages_of_reached _ cut noticed)
      (advances_loadPackages _ whole)
  | going same before =>
    subst same
    have going := cut.not_isCancelled_cut config system before
    rw [loadPackages, loadPackages, if_neg going, if_neg (cut.not_isCancelled_whole _ _)]
    dsimp only
    rcases cut.loadWave_cut config system before
      (unseen [] (cut.snapshot.modules.flatMap (·.packages))) Snapshot.absorbPackage with
      ⟨same, short⟩ | ⟨reached, last, behind⟩
    · -- Neither load is marked as cancelled.
      refine .going ?_ short
      have unmarked : (cut.loadWave (.cut config system limit)
          (unseen [] (cut.snapshot.modules.flatMap (·.packages)))
          Snapshot.absorbPackage).isCancelled (.cut config system limit) = false :=
        decide_eq_false (Nat.not_le_of_lt short)
      rw [unmarked, same]
      rfl
    · exact .halted reached last behind

theorem loadModules_cut (cutAt : CutAt limit cut whole) :
    CutAt limit (cut.loadModules (.cut config system limit))
      (whole.loadModules (.whole config system)) := by
  cases cutAt with
  | halted reached last behind =>
    have noticed := (cut.isCancelled_cut_iff config system).mpr reached
    exact .halt reached last behind (events_loadModules_of_reached _ cut noticed)
      (advances_loadModules _ whole)
  | going same before =>
    subst same
    have components := cut.loadComponents_cut config system before
    have libraries := loadLibraries_cut config system (system.pathCount + 1)
      (cut.loadComponents (.whole config system)).2 components
    exact loadPackages_cut config system (bindLibraries_cut libraries)

/-! ### Roots -/

/-- How the reading of the roots ends in the two loads. -/
inductive RootsCutAt (limit : Nat) : RootsOutcome → RootsOutcome → Prop
  | complete {cut whole : LoadProgress} (cutAt : CutAt limit cut whole) :
      RootsCutAt limit (.complete cut) (.complete whole)
  | failed (progress : LoadProgress) (error : LoadError)
      (before : progress.events.length < limit) :
      RootsCutAt limit (.failed progress error) (.failed progress error)
  /-- One load stops before a root. The other reads that root, or fails to. -/
  | cancelled {cut : LoadProgress} {outcome : RootsOutcome} (reached : limit ≤ cut.events.length)
      (last : cut.events.length ≤ max limit 1) (behind : cut.events <+: outcome.progress.events) :
      RootsCutAt limit (.cancelled cut) outcome

theorem loadRoots_cut (roots : List Path) (cutAt : CutAt limit cut whole) :
    RootsCutAt limit (cut.loadRoots (.cut config system limit) roots)
      (whole.loadRoots (.whole config system) roots) := by
  induction roots generalizing cut whole with
  | nil => exact .complete cutAt
  | cons root rest ih =>
    cases cutAt with
    | halted reached last behind =>
      -- The cut load sees its cancellation here, while the whole one goes on.
      have noticed := (cut.isCancelled_cut_iff config system).mpr reached
      have stopped : cut.loadRoots (.cut config system limit) (root :: rest) = .cancelled cut :=
        if_pos noticed
      rw [stopped]
      exact .cancelled reached last (behind.trans (advances_loadRoots _ whole _).prefix_events)
    | going same before =>
      subst same
      have going := cut.not_isCancelled_cut config system before
      simp only [loadRoots, if_neg going, if_neg (cut.not_isCancelled_whole _ _)]
      dsimp only [LoadSource.cut, LoadSource.whole]
      split
      · exact .failed cut _ before
      next file reader _ =>
        refine ih (.of_same _ ?_)
        have told : (cut.absorbRoot root file reader).events.length = cut.events.length + 1 :=
          List.length_append
        omega

theorem CutAt.within (cutAt : CutAt limit cut whole) : cut.events.length ≤ max limit 1 := by
  cases cutAt with
  | going _ before => omega
  | halted _ last _ => exact last

theorem CutAt.behind (cutAt : CutAt limit cut whole) : cut.events <+: whole.events := by
  cases cutAt with
  | going same _ => exact same ▸ List.prefix_refl _
  | halted _ _ behind => exact behind

end LoadProgress

/-! ### Reports -/

/-- The report of a load that is cancelled after `limit` events, beside the report of the same
load without a cancellation. -/
structure LoadReport.CutShort (limit : Nat) (cut whole : LoadReport) : Prop where
  /-- Up to its end the load tells of what the other one tells of first. -/
  events : cut.events.dropLast <+: whole.events.dropLast
  /-- After the cancellation no unit is told of. -/
  silent : ∀ event ∈ cut.events.drop limit, event.unit? = none
  /-- The snapshot is marked exactly if the load was cancelled before its end was told of. -/
  marked : ∀ snapshot, cut.result = .ok snapshot →
    (snapshot.cancelled = true ↔ limit < cut.events.length)
  /-- A snapshot that is not marked is the one of the other load. -/
  unmarked : ∀ snapshot, cut.result = .ok snapshot → snapshot.cancelled = false →
    whole.result = .ok snapshot
  /-- A cancellation makes no load fail. -/
  failed : ∀ error, cut.result = .error error → whole.result = .error error

namespace LoadReport

variable {limit : Nat}

/-- Behind the limit there is at most the end of the load, and the start if the load was
cancelled beforehand. -/
theorem unit_of_mem_drop (generation roots : Nat) (told : List LoadEvent) (last event : LoadEvent)
    (started : [.started generation roots] <+: told) (within : told.length ≤ max limit 1)
    (ends : last.unit? = none) (member : event ∈ (told ++ [last]).drop limit) :
    event.unit? = none := by
  obtain ⟨units, rfl⟩ := started
  by_cases short : ([LoadEvent.started generation roots] ++ units).length ≤ limit
  · rw [List.drop_append, List.drop_eq_nil_of_le short, List.nil_append] at member
    rw [List.mem_singleton.mp (List.mem_of_mem_drop member)]
    exact ends
  · -- Only the start is told of before it shows that the load is cancelled.
    have alone : units = [] := List.eq_nil_of_length_eq_zero (by
      rw [List.length_append, List.length_singleton] at within short
      omega)
    rw [alone] at member
    rcases List.mem_append.mp (List.mem_of_mem_drop member) with first | second
    · rw [List.mem_singleton.mp first]
      rfl
    · rw [List.mem_singleton.mp second]
      exact ends

theorem cutShort_finished (generation roots : Nat) (cut : LoadProgress) (whole : LoadReport)
    (started : [.started generation roots] <+: cut.events)
    (within : cut.events.length ≤ max limit 1) (behind : cut.events <+: whole.events.dropLast)
    (marked : cut.snapshot.cancelled = true ↔ limit ≤ cut.events.length)
    (same : cut.events.length < limit → whole.result = .ok cut.snapshot) :
    CutShort limit (finished cut) whole where
  events := by
    rw [finished, List.dropLast_concat]
    exact behind
  silent _ member := unit_of_mem_drop generation roots _ _ _ started within rfl member
  marked snapshot published := by
    cases published
    rw [marked, finished, List.length_append, List.length_singleton, Nat.lt_succ_iff]
  unmarked snapshot published unmarked := by
    cases published
    exact same (Nat.lt_of_not_le fun reached => absurd (marked.mpr reached) (by simp [unmarked]))
  failed _ failed := nomatch failed

/-- What was told of the roots is not taken back, and it is not the end. -/
theorem prefix_events_build (source : LoadSource) (generation : Nat) (roots : List Path) :
    ((LoadProgress.start generation roots).loadRoots source roots).progress.events <+:
      (build source generation roots).events.dropLast := by
  cases outcome : (LoadProgress.start generation roots).loadRoots source roots with
  | failed progress error =>
    rw [build_of_failed source generation roots progress error outcome, List.dropLast_concat]
    exact List.prefix_refl _
  | cancelled progress =>
    rw [build_of_cancelled source generation roots progress outcome, finished,
      List.dropLast_concat]
    exact List.prefix_refl _
  | complete progress =>
    rw [build_of_complete source generation roots progress outcome, finished,
      List.dropLast_concat]
    exact (progress.advances_loadModules source).prefix_events

theorem build_cutShort (config : Configuration) (system : FileSystem) (limit generation : Nat)
    (roots : List Path) :
    CutShort limit (build (.cut config system limit) generation roots)
      (build (.whole config system) generation roots) := by
  have started := (LoadProgress.advances_loadRoots (.cut config system limit)
    (.start generation roots) roots).prefix_events
  have told := prefix_events_build (.whole config system) generation roots
  have begun : LoadProgress.CutAt limit (.start generation roots) (.start generation roots) :=
    .of_same _ (Nat.le_max_right _ _)
  have rooted := LoadProgress.loadRoots_cut config system roots begun
  -- The outcomes of both loads at their roots become variables, to tell their cases apart.
  generalize cutOutcome :
    (LoadProgress.start generation roots).loadRoots (.cut config system limit) roots = outcome
    at started rooted
  generalize wholeOutcome :
    (LoadProgress.start generation roots).loadRoots (.whole config system) roots = other
    at told rooted
  cases rooted with
  | failed progress error before =>
    rw [build_of_failed _ _ _ _ _ cutOutcome, build_of_failed _ _ _ _ _ wholeOutcome]
    have within : progress.events.length ≤ max limit 1 := by omega
    exact ⟨List.prefix_refl _, fun _ => unit_of_mem_drop _ _ _ _ _ started within rfl,
      (fun _ published => nomatch published), (fun _ published => nomatch published),
      fun _ failed => failed⟩
  | cancelled reached last behind =>
    rw [build_of_cancelled _ _ _ _ cutOutcome]
    exact cutShort_finished _ _ _ _ started last (behind.trans told)
      (iff_of_true rfl reached) fun before => absurd reached (Nat.not_le_of_lt before)
  | complete cutAt =>
    rw [build_of_complete _ _ _ _ cutOutcome, build_of_complete _ _ _ _ wholeOutcome]
    have ended := LoadProgress.loadModules_cut config system cutAt
    have startedToo := started.trans
      (LoadProgress.advances_loadModules (.cut config system limit) _).prefix_events
    refine cutShort_finished _ _ _ _ startedToo ended.within ?_ ?_ fun before => ?_
    · rw [finished, List.dropLast_concat]
      exact ended.behind
    · rw [LoadProgress.cancelled_loadModules]
      exact LoadProgress.isCancelled_cut_iff config system _
    · cases ended with
      | going same _ => rw [same]; rfl
      | halted reached _ _ => exact absurd reached (Nat.not_le_of_lt before)

end LoadReport

/-- A cancelled load is the beginning of the load without a cancellation. -/
theorem Workspace.load_cutShort (workspace : Workspace) (system : FileSystem) (limit : Nat) :
    LoadReport.CutShort limit (workspace.load system ⟨some limit⟩).1
      (workspace.load system .never).1 := by
  unfold load
  dsimp only
  split
  · exact ⟨List.prefix_refl _, (fun event member => by simp at member),
      (fun _ published => nomatch published), (fun _ published => nomatch published),
      fun _ failed => failed⟩
  · exact LoadReport.build_cutShort workspace.config system limit _ _

end FirmwareWorkspace
