import FirmwareWorkspace.Proofs.Document.Passes
import FirmwareWorkspace.Proofs.FileSystem.Paths

/-!
# Reading without a bound

A reader that nothing bounds enters every file that an include finds, however deep it is.
`Reads` says what it does. Its derivations are finite, so it holds only where reading ends,
and it holds of what a reader does that has one level more than there are files.
-/
namespace FirmwareWorkspace

/-- How a reader that nothing bounds takes in lines: from a state and the lines ahead to the
outcome. -/
inductive TakesIn (system : FileSystem) : PassState → Nat → List String → Step → Prop
  | done {state : PassState} {line : Nat} : TakesIn system state line [] (state, none)
  | stop {state next : PassState} {line : Nat} {raw : String} {rest : List String}
      {error : FatalError} (stays : state.entryAt? system line raw = none)
      (stopped : state.step system .refuse line raw = (next, some error)) :
      TakesIn system state line (raw :: rest) (next, some error)
  | advance {state next : PassState} {line : Nat} {raw : String} {rest : List String}
      {outcome : Step} (stays : state.entryAt? system line raw = none)
      (stepped : state.step system .refuse line raw = (next, none))
      (after : TakesIn system next (line + 1) rest outcome) :
      TakesIn system state line (raw :: rest) outcome
  /-- A line finds a file that cannot be read. -/
  | shut {state : PassState} {line : Nat} {raw : String} {rest : List String} {entry : Entry}
      {failure : ReadFailure} {outcome : Step}
      (enters : state.entryAt? system line raw = some entry)
      (unreadable : system.read entry.target.normalize = .error failure)
      (after : TakesIn system (entry.state.report line (.unresolvedInclude entry.reference))
        (line + 1) rest outcome) :
      TakesIn system state line (raw :: rest) outcome
  /-- A line enters a file. -/
  | enter {state last : PassState} {line : Nat} {raw text : String} {rest : List String}
      {entry : Entry} {fatal : Option FatalError} {outcome : Step}
      (enters : state.entryAt? system line raw = some entry)
      (readable : system.read entry.target.normalize = .ok text)
      (inside : TakesIn system (.opening entry.state.reader entry.target.normalize
        (some entry.state.pass.dialect) entry.state.place) 0 (Text.lines text) (last, fatal))
      (after : TakesIn system ⟨.finish last fatal, last.place, entry.state.pass⟩ (line + 1) rest
        outcome) :
      TakesIn system state line (raw :: rest) outcome

/-- How a reader that nothing bounds reads a file. -/
inductive Reads (system : FileSystem) (path : Path) (inherited : Option Dialect)
    (place : SectionState) (reader : Reader) :
    Except ReadFailure (FileId × SectionState × Reader) → Prop
  | unreadable {failure : ReadFailure} (failed : system.read path.normalize = .error failure) :
      Reads system path inherited place reader (.error failure)
  | passed {text : String} {state : PassState} {fatal : Option FatalError}
      (readable : system.read path.normalize = .ok text)
      (taken : TakesIn system (.opening reader path.normalize inherited place) 0 (Text.lines text)
        (state, fatal)) :
      Reads system path inherited place reader
        (.ok ((reader.files.number path.normalize).1, state.place, .finish state fatal))

/-- A reader that never runs out of levels does what one does that nothing bounds. -/
theorem Runs.takesIn {system : FileSystem} {depth line : Nat} {state : PassState}
    {lines : List String} {events : List ReadEvent} {outcome : Step}
    (run : Runs system depth state line lines events outcome)
    (deep : IsDeep system.paths depth state.reader.openFiles) :
    TakesIn system state line lines outcome := by
  induction run with
  | done => exact .done
  | stop stays stopped => exact .stop stays stopped
  | advance stays stepped _ ih =>
    have keeps := PassState.Keeps.of_step stepped
    rw [← keeps.openFiles] at deep
    exact .advance stays stepped (ih deep)
  | shut enters blocked _ ih =>
    have keeps := PassState.Keeps.of_entry enters
    have unreadable := blocked.resolve_left (Nat.pos_iff_ne_zero.mp deep.pos)
    obtain ⟨_, failed⟩ := unreadable
    rw [← keeps.openFiles] at deep
    exact .shut enters failed (ih deep)
  | @enter _ state last line raw text _ entry _ _ fatal _ enters readable inside _ innerIH ih =>
    have keeps := PassState.Keeps.of_entry enters
    have ⟨normal, fresh⟩ := state.entry_target line raw entry enters
    rw [← keeps.openFiles] at deep fresh
    -- The file that is entered is one more of the file system.
    have listed := system.mem_paths_of_read _ (Path.normalize_normalize _) text readable
    have inner := innerIH (deep.enter _ (by rw [normal]; exact fresh) listed)
    refine .enter enters readable inner (ih ?_)
    rw [Reader.finish_openFiles, inside.stays.1]
    exact deep

/-- Reading ends, and one level more than there are files is as good as no bound. -/
theorem Reader.reads_readFile (system : FileSystem) (path : Path) (inherited : Option Dialect)
    (place : SectionState) (reader : Reader) (closed : reader.openFiles = []) :
    Reads system path inherited place reader
      (readFile system (system.fileCount + 1) path inherited place reader) := by
  cases read : system.read path.normalize with
  | error failure =>
    rw [readFile, read]
    exact .unreadable read
  | ok text =>
    rw [readFile_succ system _ path inherited place reader text read]
    refine .passed read (Runs.takesIn (Runs.of_steps system system.fileCount 0 _ _) ?_)
    have listed := system.mem_paths_of_read _ (Path.normalize_normalize _) text read
    have deep := (IsDeep.idle system).enter path.normalize List.not_mem_nil listed
    rwa [← closed] at deep

end FirmwareWorkspace
