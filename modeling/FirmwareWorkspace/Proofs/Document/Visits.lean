import FirmwareWorkspace.Proofs.Document.Passes

/-!
# The lines that a reader reaches

Reading a file reaches lines in an order of their own: those of the file from the first one
on, and behind a line that enters a file the lines of that file. A visit is such a line with
the state in which it is reached, which tells whether the line is live and what it says.

A table that lines write to can be followed from visit to visit. `Replays` lists what has to be
known of single lines; what whole files and sequences of files write to the table follows.
-/
namespace FirmwareWorkspace

/-! ### What a line says -/

namespace PassState

/-- The code of a line with its macros filled in. -/
def expanded (state : PassState) (raw : String) : String :=
  state.reader.definitions.replaceAll (Line.code raw)

/-- The PCD assignment that a line makes. -/
def assignmentAt? (state : PassState) (raw : String) : Option Line.PcdAssignment :=
  if state.declares raw then Line.pcdAssignment? state.pass.dialect (state.expanded raw) else none

/-- What a line that assigns no PCD is classified as. -/
def kindAt? (state : PassState) (raw : String) : Option LineKind :=
  if state.declares raw && (state.assignmentAt? raw).isNone then
    some (Line.classify state.pass.dialect state.place.sectionType state.place.subsection
      (state.reader.pcds.replaceInLine (state.expanded raw)))
  else none

theorem step_of_declares (state : PassState) (system : FileSystem) (enter : Enter) (line : Nat)
    (raw : String) (declares : state.declares raw = true) :
    state.step system enter line raw = (state.declareLine system line raw, none) := by
  simp only [PassState.declares, Bool.and_eq_true, decide_eq_true_eq,
    Option.isNone_iff_eq_none] at declares
  obtain ⟨⟨coded, plain⟩, live⟩ := declares
  simp only [step, coded, if_false, plain, live, if_true]

theorem step_of_assignment (state : PassState) (system : FileSystem) (enter : Enter) (line : Nat)
    (raw : String) (assignment : Line.PcdAssignment)
    (assigns : state.assignmentAt? raw = some assignment) :
    state.step system enter line raw = (state.assign line raw assignment, none) := by
  simp only [assignmentAt?, Option.ite_none_right_eq_some] at assigns
  rw [step_of_declares state system enter line raw assigns.1]
  have found : Line.pcdAssignment? state.pass.dialect
    (state.reader.definitions.replaceAll (Line.code raw)) = some assignment := assigns.2
  simp only [declareLine, found]

theorem step_of_kind (state : PassState) (system : FileSystem) (enter : Enter) (line : Nat)
    (raw : String) (kind : LineKind) (classified : state.kindAt? raw = some kind) :
    state.step system enter line raw =
      (state.declare system line raw (state.reader.pcds.replaceInLine (state.expanded raw)) kind,
        none) := by
  simp only [kindAt?, Option.ite_none_right_eq_some, Bool.and_eq_true,
    Option.isNone_iff_eq_none, Option.some.injEq] at classified
  obtain ⟨⟨declares, unassigned⟩, rfl⟩ := classified
  rw [step_of_declares state system enter line raw declares]
  simp only [assignmentAt?, declares, if_true, expanded] at unassigned
  simp only [declareLine, unassigned, expanded]

/-- A line that declares something assigns a PCD or is classified. -/
theorem kind_of_declares (state : PassState) (raw : String) (declares : state.declares raw = true)
    (unassigned : state.assignmentAt? raw = none) :
    ∃ kind, state.kindAt? raw = some kind ∧ kind.FitsIn state.place.sectionType := by
  simp only [kindAt?, declares, unassigned, Option.isNone_none, Bool.and_self, if_true]
  exact ⟨_, rfl, Line.classify_fits _ _ _ _⟩

/-- A line that enters a file declares nothing. -/
theorem declares_of_entry (state : PassState) (system : FileSystem) (line : Nat) (raw : String)
    (entry : Entry) (enters : state.entryAt? system line raw = some entry) :
    state.declares raw = false := by
  unfold entryAt? at enters
  split at enters
  next target directive => simp [declares, directive]
  · cases enters

theorem kind_of_entry (state : PassState) (system : FileSystem) (line : Nat) (raw : String)
    (entry : Entry) (enters : state.entryAt? system line raw = some entry) :
    state.kindAt? raw = none := by
  simp [kindAt?, state.declares_of_entry system line raw entry enters]

theorem assignment_of_entry (state : PassState) (system : FileSystem) (line : Nat) (raw : String)
    (entry : Entry) (enters : state.entryAt? system line raw = some entry) :
    state.assignmentAt? raw = none := by
  simp [assignmentAt?, state.declares_of_entry system line raw entry enters]

/-- What outlives directives, dead lines and declarations that bind nothing outlives a line that
binds no macro and assigns no PCD. -/
theorem SurvivesDirectives.step_unbound {motive : PassState → Prop}
    (survives : SurvivesDirectives motive)
    (inactive : ∀ state line, motive state → motive (state.markInactive line))
    (state : PassState) (system : FileSystem) (line : Nat) (raw : String)
    (unassigned : state.assignmentAt? raw = none)
    (unbound : ∀ name value, state.kindAt? raw ≠ some (.definition name value))
    (holds : motive state) : motive (state.step system .refuse line raw).1 := by
  apply survives.step inactive state system line raw _ holds
  intro declares
  obtain ⟨kind, classified, fits⟩ := state.kind_of_declares raw declares unassigned
  have declared := step_of_declares state system .refuse line raw declares
  rw [step_of_kind state system .refuse line raw kind classified] at declared
  rw [← (Prod.mk.inj declared).1]
  refine survives.declare state system line raw _ kind fits ?_ holds
  rintro name value rfl
  exact unbound name value classified

end PassState

/-! ### Visits -/

/-- A line that a reader reaches, with the state before it. -/
structure LineVisit where
  state : PassState
  line : Nat
  raw : String
  deriving DecidableEq, Repr

/-- The lines that are reached by taking in lines; `inside` gives those of an entered file. -/
def PassState.visits (state : PassState) (system : FileSystem) (enter : Enter)
    (inside : Path → Option Dialect → SectionState → Reader → List LineVisit) (line : Nat) :
    List String → List LineVisit
  | [] => []
  | raw :: rest =>
    let entered := match state.entryAt? system line raw with
      | none => []
      | some entry =>
        inside entry.target (some entry.state.pass.dialect) entry.state.place entry.state.reader
    match state.step system enter line raw with
    | (next, none) =>
      ⟨state, line, raw⟩ :: entered ++ next.visits system enter inside (line + 1) rest
    | (_, some _) => ⟨state, line, raw⟩ :: entered

/-- The lines that are reached by reading a file. -/
def Reader.visits (system : FileSystem) :
    Nat → Path → Option Dialect → SectionState → Reader → List LineVisit
  | 0, _, _, _, _ => []
  | depth + 1, path, inherited, place, reader =>
    match system.read path.normalize with
    | .error _ => []
    | .ok text =>
      (PassState.opening reader path.normalize inherited place).visits system (.upTo system depth)
        (visits system depth) 0 (Text.lines text)

theorem Reader.visits_unreadable (system : FileSystem) (depth : Nat) (path : Path)
    (inherited : Option Dialect) (place : SectionState) (reader : Reader)
    (blocked : depth = 0 ∨ ∃ failure, system.read path.normalize = .error failure) :
    visits system depth path inherited place reader = [] := by
  cases depth with
  | zero => rfl
  | succ depth =>
    obtain ⟨failure, unreadable⟩ := blocked.resolve_left (Nat.succ_ne_zero depth)
    simp only [visits, unreadable]

/-! ### What each line of a run reaches -/

namespace PassState

variable {system : FileSystem} {depth line : Nat} {state next : PassState} {raw : String}
  {rest : List String} {entry : Entry}

theorem visits_stop {error : FatalError} (stays : state.entryAt? system line raw = none)
    (stopped : state.step system .refuse line raw = (next, some error)) :
    state.visits system (.upTo system depth) (Reader.visits system depth) line (raw :: rest) =
      [⟨state, line, raw⟩] := by
  simp only [visits, stays, step_of_no_entry _ system _ _ _ stays, stopped]

theorem visits_advance (stays : state.entryAt? system line raw = none)
    (stepped : state.step system .refuse line raw = (next, none)) :
    state.visits system (.upTo system depth) (Reader.visits system depth) line (raw :: rest) =
      ⟨state, line, raw⟩ ::
        next.visits system (.upTo system depth) (Reader.visits system depth) (line + 1) rest := by
  simp only [visits, stays, step_of_no_entry _ system _ _ _ stays, stepped, List.cons_append,
    List.nil_append]

/-- Nothing is reached of a file that cannot be read. -/
theorem visits_shut (enters : state.entryAt? system line raw = some entry)
    (blocked : depth = 0 ∨ ∃ failure, system.read entry.target.normalize = .error failure) :
    state.visits system (.upTo system depth) (Reader.visits system depth) line (raw :: rest) =
      ⟨state, line, raw⟩ :: (entry.state.report line (.unresolvedInclude entry.reference)).visits
        system (.upTo system depth) (Reader.visits system depth) (line + 1) rest := by
  obtain ⟨failure, failed⟩ := Reader.readFile_unreadable system depth entry.target
    (some entry.state.pass.dialect) entry.state.place entry.state.reader blocked
  have read : entry.enteredBy (.upTo system depth) = .error failure := failed
  simp only [visits, enters, step_of_entry _ system _ _ _ _ enters, read, Entry.resume,
    Reader.visits_unreadable system depth entry.target _ _ _ blocked, List.cons_append,
    List.nil_append]

/-- The lines of an entered file lie between the line that enters it and the rest. -/
theorem visits_enter {last : PassState} {text : String} {inner : List ReadEvent}
    {fatal : Option FatalError} (enters : state.entryAt? system line raw = some entry)
    (readable : system.read entry.target.normalize = .ok text)
    (inside : Runs system depth (.opening entry.state.reader entry.target.normalize
      (some entry.state.pass.dialect) entry.state.place) 0 (Text.lines text) inner (last, fatal)) :
    state.visits system (.upTo system (depth + 1)) (Reader.visits system (depth + 1)) line
        (raw :: rest) =
      ⟨state, line, raw⟩ ::
        ((opening entry.state.reader entry.target.normalize (some entry.state.pass.dialect)
            entry.state.place).visits system (.upTo system depth) (Reader.visits system depth) 0
            (Text.lines text) ++
          (PassState.mk (.finish last fatal) last.place entry.state.pass).visits system
            (.upTo system (depth + 1)) (Reader.visits system (depth + 1)) (line + 1) rest) := by
  have read : entry.enteredBy (.upTo system (depth + 1)) = _ :=
    Reader.readFile_succ system depth entry.target _ _ _ text readable
  simp only [visits, enters, step_of_entry _ system _ _ _ _ enters, read, Entry.resume,
    Reader.visits, readable, ← inside.eq_steps.2, List.cons_append]

end PassState

theorem Reader.visits_readable (system : FileSystem) (depth : Nat) (path : Path)
    (inherited : Option Dialect) (place : SectionState) (reader : Reader) (text : String)
    (readable : system.read path.normalize = .ok text) :
    visits system (depth + 1) path inherited place reader =
      (PassState.opening reader path.normalize inherited place).visits system (.upTo system depth)
        (visits system depth) 0 (Text.lines text) := by
  simp only [visits, readable]

/-! ### Tables that lines write to -/

/-- A view of the reader changes from visit to visit by `update`, and by nothing else. -/
structure Replays {β : Type} (system : FileSystem) (view : Reader → β)
    (update : β → LineVisit → β) : Prop where
  /-- A line that enters no file. -/
  step : ∀ state line raw, state.entryAt? system line raw = none →
    view (state.step system .refuse line raw).1.reader =
      update (view state.reader) ⟨state, line, raw⟩
  /-- A line up to the moment when it enters a file. -/
  entry : ∀ state line raw entry, state.entryAt? system line raw = some entry →
    view entry.state.reader = update (view state.reader) ⟨state, line, raw⟩
  shut : ∀ (state : PassState) line reference,
    view (state.report line (.unresolvedInclude reference)).reader = view state.reader
  opening : ∀ reader path inherited place,
    view (PassState.opening reader path inherited place).reader = view reader
  finish : ∀ state fatal, view (.finish state fatal) = view state.reader

namespace Replays

variable {β : Type} {system : FileSystem} {view : Reader → β} {update : β → LineVisit → β}

/-- A run leaves what its visits make of the view. -/
theorem run (replays : Replays system view update) {depth line : Nat} {state : PassState}
    {lines : List String} {events : List ReadEvent} {outcome : Step}
    (run : Runs system depth state line lines events outcome) :
    view outcome.1.reader =
      (state.visits system (.upTo system depth) (Reader.visits system depth) line lines).foldl
        update (view state.reader) := by
  induction run with
  | done => rfl
  | @stop _ state _ line raw _ _ stays stopped =>
    have stepped := replays.step state line raw stays
    rw [stopped] at stepped
    rw [PassState.visits_stop stays stopped, List.foldl_cons, List.foldl_nil]
    exact stepped
  | @advance _ state _ line raw _ _ _ stays moved _ ih =>
    have stepped := replays.step state line raw stays
    rw [moved] at stepped
    rw [PassState.visits_advance stays moved, List.foldl_cons, ← stepped]
    exact ih
  | shut enters blocked _ ih =>
    rw [replays.shut] at ih
    rw [PassState.visits_shut enters blocked, List.foldl_cons, ← replays.entry _ _ _ _ enters]
    exact ih
  | enter enters readable inside _ innerIH ih =>
    rw [replays.opening] at innerIH
    -- The visits of the entered file come between those in front of it and those behind.
    rw [replays.finish, innerIH] at ih
    rw [PassState.visits_enter enters readable inside, List.foldl_cons, List.foldl_append,
      ← replays.entry _ _ _ _ enters]
    exact ih

theorem readFile (replays : Replays system view update) (depth : Nat) (path : Path)
    (inherited : Option Dialect) (place : SectionState) (reader : Reader) (file : FileId)
    (after : SectionState) (done : Reader)
    (returned : Reader.readFile system depth path inherited place reader =
      .ok (file, after, done)) :
    view done =
      (Reader.visits system depth path inherited place reader).foldl update (view reader) := by
  rcases readable_or_blocked system depth path.normalize with
    ⟨levels, text, rfl, readable⟩ | blocked
  · have ran := replays.run (Runs.of_steps system levels 0
      (.opening reader path.normalize inherited place) (Text.lines text))
    rw [replays.opening] at ran
    rw [Reader.readFile_succ system levels path inherited place reader text readable] at returned
    cases returned
    rw [replays.finish, ran, Reader.visits_readable system levels path _ _ _ text readable]
  · obtain ⟨failure, failed⟩ :=
      Reader.readFile_unreadable system depth path inherited place reader blocked
    rw [failed] at returned
    cases returned

end Replays

/-! ### Several files -/

namespace Reader

/-- Read a file, or leave everything as it is if the file cannot be read. -/
def readOrSkip (system : FileSystem) (reader : Reader) (path : Path) : Reader :=
  match reader.read system path with
  | .ok (_, next) => next
  | .error _ => reader

/-- Read files one after the other. -/
def readAll (reader : Reader) (system : FileSystem) (paths : List Path) : Reader :=
  paths.foldl (readOrSkip system) reader

/-- The lines that are reached by reading files one after the other. -/
def visitsOfAll (reader : Reader) (system : FileSystem) : List Path → List LineVisit
  | [] => []
  | path :: rest =>
    visits system (system.fileCount + 1) path none .initial reader ++
      (reader.readOrSkip system path).visitsOfAll system rest

end Reader

namespace Replays

variable {β : Type} {system : FileSystem} {view : Reader → β} {update : β → LineVisit → β}

theorem readOrSkip (replays : Replays system view update) (reader : Reader) (path : Path) :
    view (reader.readOrSkip system path) =
      (Reader.visits system (system.fileCount + 1) path none .initial reader).foldl update
        (view reader) := by
  unfold Reader.readOrSkip Reader.read
  cases returned : Reader.readFile system (system.fileCount + 1) path none .initial reader with
  | ok result =>
    obtain ⟨file, after, done⟩ := result
    exact replays.readFile _ path none .initial reader file after done returned
  | error failure =>
    -- A file that could be read would have been read.
    rcases readable_or_blocked system (system.fileCount + 1) path.normalize with
      ⟨levels, text, deep, readable⟩ | blocked
    · rw [deep, Reader.readFile_succ system levels path none .initial reader text readable]
        at returned
      cases returned
    · rw [Reader.visits_unreadable system _ path none .initial reader blocked]
      rfl

/-- Files that are read one after the other leave what their visits make of the view. -/
theorem readAll (replays : Replays system view update) (reader : Reader) (paths : List Path) :
    view (reader.readAll system paths) =
      (reader.visitsOfAll system paths).foldl update (view reader) := by
  induction paths generalizing reader with
  | nil => rfl
  | cons path rest ih =>
    rw [Reader.visitsOfAll, List.foldl_append, ← replays.readOrSkip reader path]
    exact ih _

end Replays

end FirmwareWorkspace
