import FirmwareWorkspace.Document.Reading

/-!
# The journal of reading

A reader keeps what every file contributed, but not the order in which the lines
of several files were taken in. The journal of reading a file holds that order: each
symbol when its line is reached, also inside included files, and each pass when it
ends.

A line enters at most one file. `entryAt?` says which and in what state, so a line can
be taken apart into what it does before the file is entered, the reading of that file,
and what it does afterwards. `Runs` is the relation that this gives between a state,
the lines ahead, the journal and the outcome; it holds of exactly what the reader does,
and its rules are the cases of every proof about reading.
-/
namespace FirmwareWorkspace

/-- An include that enters a file. -/
structure Entry where
  target : Path
  /-- What was looked up to find the file. -/
  reference : String
  /-- The including pass at the moment when the file is entered. -/
  state : PassState
  deriving DecidableEq, Repr

/-- What a reader does when it is refused every file. -/
def Enter.refuse : Enter :=
  fun path _ _ _ => .error ⟨path, .notFound⟩

/-- The way in which a reader enters files with `depth` further levels to go. -/
def Enter.upTo (system : FileSystem) (depth : Nat) : Enter :=
  fun path dialect place reader => Reader.readFile system depth path (some dialect) place reader

namespace PassState

def includeReference (state : PassState) (target : String) : String :=
  state.reader.definitions.replaceAll (Line.unquoted target)

/-- The state after an include has looked up its reference and emitted its symbol. -/
def noteInclude (state : PassState) (system : FileSystem) (line : Nat) (raw target : String) :
    PassState :=
  let reference := state.includeReference target
  let (resolution, resolver) :=
    state.reader.resolver.resolve system reference (some state.pass.path)
  let state := { state with reader := { state.reader with resolver := resolver } }
  state.addSymbol
    { state.symbol .inclusion line raw reference reference with target := resolution.path? }

def addInclude (state : PassState) (path : Path) : PassState :=
  { state with pass := { state.pass with includes := state.pass.includes ++ [path] } }

/-- The entry of an include that finds a file which is not being read. -/
def includeEntryAt? (state : PassState) (system : FileSystem) (line : Nat) (raw target : String) :
    Option Entry :=
  match (state.reader.resolver.resolve system (state.includeReference target)
    (some state.pass.path)).1 with
  | .found path =>
    if path ∈ state.reader.openFiles then none
    else
      some ⟨path, state.includeReference target,
        (state.noteInclude system line raw target).addInclude path⟩
  | _ => none

/-- The entry that a line makes, if it enters a file. -/
def entryAt? (state : PassState) (system : FileSystem) (line : Nat) (raw : String) : Option Entry :=
  match Directive.ofCode? (Line.code raw) with
  | some (.includeFile target) =>
    if state.pass.stack.isActive then state.includeEntryAt? system line raw target else none
  | _ => none

end PassState

namespace Entry

def enteredBy (entry : Entry) (enter : Enter) :
    Except ReadFailure (FileId × SectionState × Reader) :=
  enter entry.target entry.state.pass.dialect entry.state.place entry.state.reader

/-- The including pass after the file has been read, or could not be. -/
def resume (entry : Entry) (line : Nat) :
    Except ReadFailure (FileId × SectionState × Reader) → PassState
  | .ok (_, place, reader) => { entry.state with place := place, reader := reader }
  | .error _ => entry.state.report line (.unresolvedInclude entry.reference)

end Entry

namespace PassState

theorem includeFile_eq (state : PassState) (system : FileSystem) (enter : Enter) (line : Nat)
    (raw target : String) :
    state.includeFile system enter line raw target =
      match (state.reader.resolver.resolve system (state.includeReference target)
        (some state.pass.path)).1 with
      | .found path =>
        (state.noteInclude system line raw target).enterFile enter line
          (state.includeReference target) path
      | .unresolved name =>
        (state.noteInclude system line raw target).report line
          (.unresolvedVariable name (state.includeReference target))
      | .notFound | .rejected =>
        (state.noteInclude system line raw target).report line
          (.unresolvedInclude (state.includeReference target)) := by
  unfold includeFile noteInclude includeReference
  rfl

@[simp] theorem noteInclude_openFiles (state : PassState) (system : FileSystem) (line : Nat)
    (raw target : String) :
    (state.noteInclude system line raw target).reader.openFiles = state.reader.openFiles := by
  simp only [noteInclude, addSymbol]

theorem noteInclude_stack (state : PassState) (system : FileSystem) (line : Nat)
    (raw target : String) :
    (state.noteInclude system line raw target).pass.stack = state.pass.stack := by
  simp only [noteInclude, addSymbol]

theorem noteInclude_place (state : PassState) (system : FileSystem) (line : Nat)
    (raw target : String) : (state.noteInclude system line raw target).place = state.place := by
  simp only [noteInclude, addSymbol]

theorem includeFile_of_entry (state : PassState) (system : FileSystem) (enter : Enter)
    (line : Nat) (raw target : String) (entry : Entry)
    (enters : state.includeEntryAt? system line raw target = some entry) :
    state.includeFile system enter line raw target =
      entry.resume line (entry.enteredBy enter) := by
  rw [includeFile_eq]
  unfold includeEntryAt? at enters
  split at enters
  next path found =>
    split at enters
    · cases enters
    next fresh =>
      cases enters
      rw [found]
      simp only [enterFile, noteInclude_openFiles, fresh, if_false]
      rfl
  · cases enters

theorem includeFile_of_no_entry (state : PassState) (system : FileSystem) (enter : Enter)
    (line : Nat) (raw target : String)
    (stays : state.includeEntryAt? system line raw target = none) :
    state.includeFile system enter line raw target =
      state.includeFile system .refuse line raw target := by
  rw [includeFile_eq, includeFile_eq]
  unfold includeEntryAt? at stays
  split at stays
  next path found =>
    split at stays
    next inside =>
      rw [found]
      simp only [enterFile, noteInclude_openFiles, inside, if_true]
    · cases stays
  next other =>
    split
    next path found => exact absurd found (other path)
    all_goals rfl

-- `directive` in two parts, since the mark depends on what following the directive gave.
def followLive (state : PassState) (system : FileSystem) (enter : Enter) (line : Nat)
    (raw : String) (directive : Directive) : Step :=
  if state.pass.stack.isActive || directive.isConditional then
    state.follow system enter line raw directive
  else (state, none)

def markDead (wasActive : Bool) (line : Nat) (outcome : Step) : Step :=
  if outcome.2.isNone && !wasActive && !outcome.1.pass.stack.isActive then
    (outcome.1.markInactive line, none)
  else outcome

theorem directive_eq (state : PassState) (system : FileSystem) (enter : Enter) (line : Nat)
    (raw : String) (directive : Directive) :
    state.directive system enter line raw directive =
      markDead state.pass.stack.isActive line
        (state.followLive system enter line raw directive) := rfl

theorem markDead_fatal (wasActive : Bool) (line : Nat) (outcome : Step) :
    (markDead wasActive line outcome).2 = outcome.2 := by
  unfold markDead
  split
  next dead =>
    simp only [Bool.and_eq_true, Option.isNone_iff_eq_none] at dead
    exact dead.1.1.symm
  · rfl

/-- A live include line does what its include does. -/
theorem step_of_include (state : PassState) (system : FileSystem) (enter : Enter) (line : Nat)
    (raw target : String)
    (parsed : Directive.ofCode? (Line.code raw) = some (.includeFile target))
    (active : state.pass.stack.isActive = true) :
    state.step system enter line raw = (state.includeFile system enter line raw target, none) := by
  -- A line without code would be skipped.
  have coded : Line.code raw ≠ "" := by
    intro empty
    rw [empty] at parsed
    cases parsed
  simp only [step, coded, if_false, parsed, directive, active, Bool.true_or, if_true, follow,
    Option.isNone_none, Bool.not_true, Bool.and_false, Bool.false_and, Bool.false_eq_true]

/-- A line that enters a file does nothing after it but to go on from there. -/
theorem step_of_entry (state : PassState) (system : FileSystem) (enter : Enter) (line : Nat)
    (raw : String) (entry : Entry) (enters : state.entryAt? system line raw = some entry) :
    state.step system enter line raw = (entry.resume line (entry.enteredBy enter), none) := by
  unfold entryAt? at enters
  split at enters
  next target parsed =>
    split at enters
    next active =>
      rw [step_of_include state system enter line raw target parsed active,
        includeFile_of_entry state system enter line raw target entry enters]
    · cases enters
  · cases enters

/-- A line that enters no file does not depend on how files are entered. -/
theorem step_of_no_entry (state : PassState) (system : FileSystem) (enter : Enter) (line : Nat)
    (raw : String) (stays : state.entryAt? system line raw = none) :
    state.step system enter line raw = state.step system .refuse line raw := by
  -- Only includes ask for a file, and those that find one are ruled out.
  have same (directive : Directive) (found : Directive.ofCode? (Line.code raw) = some directive)
      (active : state.pass.stack.isActive = true ∨ directive.isConditional = true) :
      state.follow system enter line raw directive =
        state.follow system .refuse line raw directive := by
    cases directive with
    | includeFile target =>
      have live : state.pass.stack.isActive = true := active.resolve_right Bool.false_ne_true
      simp only [entryAt?, found, live, if_true] at stays
      simp only [follow, includeFile_of_no_entry state system enter line raw target stays]
    | _ => rfl
  unfold step
  split
  · rfl
  · split
    next parsed found =>
      unfold directive
      by_cases active : (state.pass.stack.isActive || parsed.isConditional) = true
      · simp only [active, if_true, same parsed found (by simpa using active)]
      · simp only [if_neg active]
    · rfl

/-- A live include line that finds a file. -/
structure Finds (state : PassState) (system : FileSystem) (raw target : String) (path : Path) :
    Prop where
  parsed : Directive.ofCode? (Line.code raw) = some (.includeFile target)
  live : state.pass.stack.isActive = true
  found : (state.reader.resolver.resolve system (state.includeReference target)
    (some state.pass.path)).1 = .found path

theorem entry_eq_some_iff (state : PassState) (system : FileSystem) (line : Nat) (raw : String)
    (entry : Entry) :
    state.entryAt? system line raw = some entry ↔
      ∃ target path, state.Finds system raw target path ∧ path ∉ state.reader.openFiles ∧
        entry = ⟨path, state.includeReference target,
          (state.noteInclude system line raw target).addInclude path⟩ := by
  constructor
  · intro enters
    unfold entryAt? at enters
    split at enters
    next target parsed =>
      split at enters
      next live =>
        unfold includeEntryAt? at enters
        split at enters
        next path found =>
          split at enters
          · cases enters
          next fresh =>
            cases enters
            exact ⟨target, path, ⟨parsed, live, found⟩, fresh, rfl⟩
        · cases enters
      · cases enters
    · cases enters
  · rintro ⟨target, path, finds, fresh, rfl⟩
    simp only [entryAt?, finds.parsed, finds.live, if_true, includeEntryAt?, finds.found,
      if_neg fresh]

def opening (reader : Reader) (path : Path) (inherited : Option Dialect) (place : SectionState) :
    PassState :=
  ⟨{ reader with
      files := (reader.files.number path).2, openFiles := path :: reader.openFiles }, place,
    .new (reader.files.number path).1 path (((Dialect.ofPath? path).or inherited).getD .dsc)⟩

end PassState

theorem Reader.readFile_succ (system : FileSystem) (depth : Nat) (path : Path)
    (inherited : Option Dialect) (place : SectionState) (reader : Reader) (text : String)
    (readable : system.read path.normalize = .ok text) :
    readFile system (depth + 1) path inherited place reader =
      let start := PassState.opening reader path.normalize inherited place
      let outcome := start.steps system (.upTo system depth) 0 (Text.lines text)
      .ok (start.pass.file, outcome.1.place, finish outcome.1 outcome.2) := by
  simp only [readFile, readable]
  rfl

theorem Reader.readFile_unreadable (system : FileSystem) (depth : Nat) (path : Path)
    (inherited : Option Dialect) (place : SectionState) (reader : Reader)
    (blocked : depth = 0 ∨ ∃ failure, system.read path.normalize = .error failure) :
    ∃ failure, readFile system depth path inherited place reader = .error failure := by
  cases depth with
  | zero => exact ⟨_, rfl⟩
  | succ depth =>
    obtain ⟨failure, unreadable⟩ := blocked.resolve_left (Nat.succ_ne_zero depth)
    exact ⟨failure, by simp only [readFile, unreadable]⟩

/-! ### Journals -/

/-- Something that happens while files are read. -/
inductive ReadEvent where
  /-- A line emitted a symbol. -/
  | emitted (symbol : Symbol)
  /-- A pass over a file ended. -/
  | passed (pass : FilePass)
  deriving DecidableEq, Repr

namespace PassState

/-- The symbols that a pass emitted between two states. -/
def emittedUntil (state later : PassState) : List ReadEvent :=
  (later.pass.symbols.drop state.pass.symbols.length).map .emitted

/-- The journal of taking in lines. -/
def journal (state : PassState) (system : FileSystem) (enter : Enter)
    (record : Path → Option Dialect → SectionState → Reader → List ReadEvent) (line : Nat) :
    List String → List ReadEvent
  | [] => []
  | raw :: rest =>
    -- The symbol of an include comes before those of its file, which `record` gives.
    let own := match state.entryAt? system line raw with
      | none => state.emittedUntil (state.step system enter line raw).1
      | some entry =>
        state.emittedUntil entry.state ++
          record entry.target (some entry.state.pass.dialect) entry.state.place entry.state.reader
    match state.step system enter line raw with
    | (next, none) => own ++ next.journal system enter record (line + 1) rest
    | (_, some _) => own

end PassState

/-- The journal of reading a file. -/
def Reader.journal (system : FileSystem) :
    Nat → Path → Option Dialect → SectionState → Reader → List ReadEvent
  | 0, _, _, _, _ => []
  | depth + 1, path, inherited, place, reader =>
    match system.read path.normalize with
    | .error _ => []
    | .ok text =>
      let start := PassState.opening reader path.normalize inherited place
      start.journal system (.upTo system depth) (journal system depth) 0 (Text.lines text) ++
        [.passed (start.steps system (.upTo system depth) 0 (Text.lines text)).1.pass]

theorem Reader.journal_unreadable (system : FileSystem) (depth : Nat) (path : Path)
    (inherited : Option Dialect) (place : SectionState) (reader : Reader)
    (blocked : depth = 0 ∨ ∃ failure, system.read path.normalize = .error failure) :
    journal system depth path inherited place reader = [] := by
  cases depth with
  | zero => rfl
  | succ depth =>
    obtain ⟨failure, unreadable⟩ := blocked.resolve_left (Nat.succ_ne_zero depth)
    simp only [journal, unreadable]

theorem Reader.journal_succ (system : FileSystem) (depth : Nat) (path : Path)
    (inherited : Option Dialect) (place : SectionState) (reader : Reader) (text : String)
    (readable : system.read path.normalize = .ok text) :
    journal system (depth + 1) path inherited place reader =
      let start := PassState.opening reader path.normalize inherited place
      start.journal system (.upTo system depth) (journal system depth) 0 (Text.lines text) ++
        [.passed (start.steps system (.upTo system depth) 0 (Text.lines text)).1.pass] := by
  simp only [journal, readable]

/-- A file can be entered, or there is no level left for it or it cannot be read. -/
theorem readable_or_blocked (system : FileSystem) (depth : Nat) (path : Path) :
    (∃ levels text, depth = levels + 1 ∧ system.read path = .ok text) ∨
      (depth = 0 ∨ ∃ failure, system.read path = .error failure) := by
  cases depth with
  | zero => exact .inr (.inl rfl)
  | succ levels =>
    cases read : system.read path with
    | error failure => exact .inr (.inr ⟨failure, rfl⟩)
    | ok text => exact .inl ⟨levels, text, rfl, rfl⟩

/-- How a reader takes in lines: from a state and the lines ahead to the journal and
the outcome, with `depth` further levels of files to go. -/
inductive Runs (system : FileSystem) :
    Nat → PassState → Nat → List String → List ReadEvent → Step → Prop
  /-- No line is left. -/
  | done {depth : Nat} {state : PassState} {line : Nat} :
      Runs system depth state line [] [] (state, none)
  /-- A line stops the file. -/
  | stop {depth : Nat} {state next : PassState} {line : Nat} {raw : String} {rest : List String}
      {error : FatalError} (stays : state.entryAt? system line raw = none)
      (stopped : state.step system .refuse line raw = (next, some error)) :
      Runs system depth state line (raw :: rest) (state.emittedUntil next) (next, some error)
  /-- A line is taken in within its file. -/
  | advance {depth : Nat} {state next : PassState} {line : Nat} {raw : String}
      {rest : List String} {events : List ReadEvent} {outcome : Step}
      (stays : state.entryAt? system line raw = none)
      (stepped : state.step system .refuse line raw = (next, none))
      (after : Runs system depth next (line + 1) rest events outcome) :
      Runs system depth state line (raw :: rest) (state.emittedUntil next ++ events) outcome
  /-- A line finds a file that cannot be read. -/
  | shut {depth : Nat} {state : PassState} {line : Nat} {raw : String} {rest : List String}
      {entry : Entry} {events : List ReadEvent} {outcome : Step}
      (enters : state.entryAt? system line raw = some entry)
      (blocked : depth = 0 ∨ ∃ failure, system.read entry.target.normalize = .error failure)
      (after : Runs system depth (entry.state.report line (.unresolvedInclude entry.reference))
        (line + 1) rest events outcome) :
      Runs system depth state line (raw :: rest) (state.emittedUntil entry.state ++ events) outcome
  /-- A line enters a file. -/
  | enter {depth : Nat} {state last : PassState} {line : Nat} {raw text : String}
      {rest : List String} {entry : Entry} {inner events : List ReadEvent}
      {fatal : Option FatalError} {outcome : Step}
      (enters : state.entryAt? system line raw = some entry)
      (readable : system.read entry.target.normalize = .ok text)
      (inside : Runs system depth (.opening entry.state.reader entry.target.normalize
        (some entry.state.pass.dialect) entry.state.place) 0 (Text.lines text) inner (last, fatal))
      (after : Runs system (depth + 1) ⟨.finish last fatal, last.place, entry.state.pass⟩ (line + 1)
        rest events outcome) :
      Runs system (depth + 1) state line (raw :: rest)
        (state.emittedUntil entry.state ++ (inner ++ .passed last.pass :: events)) outcome

namespace Runs

variable {system : FileSystem} {depth line : Nat} {state : PassState} {lines : List String}
  {events : List ReadEvent} {outcome : Step}

/-- The relation holds of what the reader does. -/
theorem of_steps (system : FileSystem) (depth line : Nat) (state : PassState)
    (lines : List String) :
    Runs system depth state line lines
      (state.journal system (.upTo system depth) (Reader.journal system depth) line lines)
      (state.steps system (.upTo system depth) line lines) := by
  -- Files that are entered have fewer levels to go; the lines of one file go down by one.
  induction depth using Nat.strongRecOn generalizing state line lines with
  | ind depth deeper =>
    induction lines generalizing state line with
    | nil => exact .done
    | cons raw rest ih =>
      simp only [PassState.journal, PassState.steps]
      cases enters : state.entryAt? system line raw with
      | none =>
        rw [PassState.step_of_no_entry state system _ line raw enters]
        match stepped : state.step system .refuse line raw with
        | (next, none) => exact .advance enters stepped (ih (line + 1) next)
        | (next, some error) => exact .stop enters stepped
      | some entry =>
        rw [PassState.step_of_entry state system _ line raw entry enters]
        -- The file is read with one level less, or there is nothing to read.
        rcases readable_or_blocked system depth entry.target.normalize with
          ⟨levels, text, rfl, readable⟩ | blocked
        · have inside := deeper levels (Nat.lt_succ_self levels) 0
            (.opening entry.state.reader entry.target.normalize
              (some entry.state.pass.dialect) entry.state.place) (Text.lines text)
          have read : entry.enteredBy (.upTo system (levels + 1)) = _ :=
            Reader.readFile_succ system levels entry.target _ _ _ text readable
          simp only [Reader.journal_succ system levels entry.target _ _ _ text readable, read,
            Entry.resume, List.append_assoc, List.singleton_append]
          exact .enter enters readable inside (ih (line + 1) _)
        · obtain ⟨failure, failed⟩ := Reader.readFile_unreadable system depth entry.target
            (some entry.state.pass.dialect) entry.state.place entry.state.reader blocked
          have read : entry.enteredBy (.upTo system depth) = .error failure := failed
          simp only [Reader.journal_unreadable system depth entry.target _ _ _ blocked, read,
            Entry.resume, List.append_nil]
          exact .shut enters blocked (ih (line + 1) _)

/-- The relation holds of nothing else. -/
theorem eq_steps (run : Runs system depth state line lines events outcome) :
    events = state.journal system (.upTo system depth) (Reader.journal system depth) line lines ∧
      outcome = state.steps system (.upTo system depth) line lines := by
  induction run with
  | done => exact ⟨rfl, rfl⟩
  | stop stays stopped =>
    simp only [PassState.journal, PassState.steps,
      PassState.step_of_no_entry _ system _ _ _ stays, stays, stopped, and_self]
  | advance stays stepped _ ih =>
    simp only [PassState.journal, PassState.steps,
      PassState.step_of_no_entry _ system _ _ _ stays, stays, stepped, ← ih.1, ← ih.2, and_self]
  | @shut depth state line raw rest entry events outcome enters blocked _ ih =>
    obtain ⟨failure, failed⟩ := Reader.readFile_unreadable system depth entry.target
      (some entry.state.pass.dialect) entry.state.place entry.state.reader blocked
    have read : entry.enteredBy (.upTo system depth) = .error failure := failed
    simp only [PassState.journal, PassState.steps, PassState.step_of_entry _ system _ _ _ _ enters,
      enters, read, Entry.resume, Reader.journal_unreadable system _ entry.target _ _ _ blocked,
      List.append_nil, ← ih.1, ← ih.2, and_self]
  | @enter depth state last line raw text rest entry inner events fatal outcome enters readable _ _
      innerIH ih =>
    have read : entry.enteredBy (.upTo system (depth + 1)) = _ :=
      Reader.readFile_succ system depth entry.target _ _ _ text readable
    simp only [PassState.journal, PassState.steps, PassState.step_of_entry _ system _ _ _ _ enters,
      enters, read, Entry.resume, Reader.journal_succ system depth entry.target _ _ _ text readable,
      ← innerIH.1, ← innerIH.2, ← ih.1, ← ih.2, List.append_assoc, List.singleton_append, and_self]

/-- A run over the lines of a file is what reading the file does. -/
theorem readFile_eq {path : Path} {inherited : Option Dialect} {place : SectionState}
    {reader : Reader} {text : String} (readable : system.read path.normalize = .ok text)
    (run : Runs system depth (.opening reader path.normalize inherited place) 0 (Text.lines text)
      events outcome) :
    Reader.readFile system (depth + 1) path inherited place reader =
        .ok ((reader.files.number path.normalize).1, outcome.1.place,
          .finish outcome.1 outcome.2) ∧
      Reader.journal system (depth + 1) path inherited place reader =
        events ++ [.passed outcome.1.pass] := by
  obtain ⟨recorded, reached⟩ := run.eq_steps
  rw [recorded, reached]
  exact ⟨Reader.readFile_succ system depth path inherited place reader text readable,
    Reader.journal_succ system depth path inherited place reader text readable⟩

/-- Lines that do not stop the file can be taken in piece by piece. -/
theorem append {back : List String} {more : List ReadEvent} {final : Step}
    (run : Runs system depth state line lines events outcome) (unstopped : outcome.2 = none)
    (rest : Runs system depth outcome.1 (line + lines.length) back more final) :
    Runs system depth state line (lines ++ back) (events ++ more) final := by
  -- The line numbers of the rest count the lines in front.
  induction run with
  | done => exact rest
  | stop _ _ => cases unstopped
  | advance stays stepped _ ih =>
    rw [List.append_assoc]
    refine .advance stays stepped (ih unstopped ?_)
    rwa [Nat.add_right_comm]
  | shut enters blocked _ ih =>
    rw [List.append_assoc]
    refine .shut enters blocked (ih unstopped ?_)
    rwa [Nat.add_right_comm]
  | enter enters readable inside _ _ ih =>
    rw [List.append_assoc, List.append_assoc, List.cons_append]
    refine .enter enters readable inside (ih unstopped ?_)
    rwa [Nat.add_right_comm]

end Runs

end FirmwareWorkspace
