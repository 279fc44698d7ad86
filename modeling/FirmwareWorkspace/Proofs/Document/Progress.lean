import FirmwareWorkspace.Proofs.Document.Mirror
import FirmwareWorkspace.Proofs.Document.Unbounded
import FirmwareWorkspace.Proofs.Document.Visits
import Mathlib.Logic.Relation

/-!
# The progress of reading

Reading a file goes from point to point: a line is taken in, a file is entered while the one that
includes it is suspended, or a file is closed and the suspended one goes on. `Progress.next` makes
one such move. It counts no levels, so nothing but the moves themselves can bring it to an end.

It does come to an end, with the outcome of the recursive reader. The open files are distinct all
the way, and that is due to includes alone: one that finds an open file is reported and passed over,
and one that finds any other file that can be read enters it.

Main result: `Reader.read_cuts_cycles`.
-/
namespace FirmwareWorkspace

/-! ### Points and moves -/

/-- A file that waits for one that it includes. -/
structure Level where
  pass : FilePass
  /-- Number of the line behind the include. -/
  line : Nat
  ahead : List String
  deriving DecidableEq, Repr

/-- A point in the reading of a file. -/
inductive Progress where
  /-- Some lines of the innermost file are ahead. -/
  | reading (state : PassState) (line : Nat) (ahead : List String) (outer : List Level)
  | finished (place : SectionState) (reader : Reader)
  deriving DecidableEq, Repr

namespace Progress

/-- Close the innermost file and go on in the one that waits for it. -/
def close (state : PassState) (fatal : Option FatalError) : List Level → Progress
  | [] => finished state.place (.finish state fatal)
  | level :: outer =>
    reading ⟨.finish state fatal, state.place, level.pass⟩ level.line level.ahead outer

/-- The next point. -/
def next (system : FileSystem) : Progress → Option Progress
  | finished _ _ => none
  | reading state _ [] outer => some (close state none outer)
  | reading state line (raw :: rest) outer =>
    some <| match state.entryAt? system line raw with
      | none =>
        match state.step system .refuse line raw with
        | (later, none) => reading later (line + 1) rest outer
        | (later, some error) => close later (some error) outer
      | some entry =>
        match system.read entry.target.normalize with
        | .error _ =>
          reading (entry.state.report line (.unresolvedInclude entry.reference)) (line + 1) rest
            outer
        | .ok text =>
          reading (.opening entry.state.reader entry.target.normalize
            (some entry.state.pass.dialect) entry.state.place) 0 (Text.lines text)
            (⟨entry.state.pass, line + 1, rest⟩ :: outer)

/-- The point before the first line of a file with some text. -/
def start (reader : Reader) (path : Path) (text : String) : Progress :=
  reading (.opening reader path.normalize none .initial) 0 (Text.lines text) []

theorem next_of_entry {system : FileSystem} (state : PassState) (line : Nat) (raw : String)
    (rest : List String) (outer : List Level) (entry : Entry) (text : String)
    (enters : state.entryAt? system line raw = some entry)
    (readable : system.read entry.target.normalize = .ok text) :
    (reading state line (raw :: rest) outer).next system =
      some (reading (.opening entry.state.reader entry.target.normalize
        (some entry.state.pass.dialect) entry.state.place) 0 (Text.lines text)
        (⟨entry.state.pass, line + 1, rest⟩ :: outer)) := by
  simp only [next, enters, readable]

/-- A point is followed by another one, after any number of moves. -/
def Leads (system : FileSystem) : Progress → Progress → Prop :=
  Relation.ReflTransGen fun point later => point.next system = some later

variable {system : FileSystem}

theorem Leads.refl (point : Progress) : point.Leads system point :=
  Relation.ReflTransGen.refl

theorem Leads.move {point later final : Progress} (moved : point.next system = some later)
    (leads : later.Leads system final) : point.Leads system final :=
  Relation.ReflTransGen.head moved leads

/-- A point that was reached lies on the way to the end. -/
theorem Leads.onward {point later : Progress} {place : SectionState} {reader : Reader}
    (leads : point.Leads system later) (ends : point.Leads system (finished place reader)) :
    later.Leads system (finished place reader) := by
  have unique : Relator.RightUnique fun point later : Progress =>
      point.next system = some later := by
    intro point first second here there
    exact Option.some.inj (here.symm.trans there)
  rcases Relation.ReflTransGen.total_of_right_unique unique leads ends with onward | backward
  · exact onward
  · -- Nothing follows the end.
    rcases Relation.ReflTransGen.cases_head backward with same | ⟨_, moved, _⟩
    · exact same ▸ .refl _
    · cases moved

/-! ### The way to the end -/

/-- What a reader does that nothing bounds, the moves do one by one. -/
theorem leads_of_takesIn {state : PassState} {line : Nat} {lines : List String} {outcome : Step}
    (taken : TakesIn system state line lines outcome) (outer : List Level) :
    (reading state line lines outer).Leads system (close outcome.1 outcome.2 outer) := by
  induction taken generalizing outer with
  | done => exact .move rfl (.refl _)
  | stop stays stopped =>
    refine .move ?_ (.refl _)
    simp only [next, stays, stopped]
  | advance stays stepped _ ih =>
    refine .move ?_ (ih outer)
    simp only [next, stays, stepped]
  | shut enters unreadable _ ih =>
    refine .move ?_ (ih outer)
    simp only [next, enters, unreadable]
  | @enter state last line raw text rest entry fatal outcome enters readable _ _ innerIH ih =>
    -- The including file waits as the innermost level, and closing the included one wakes it.
    have inside := innerIH (⟨entry.state.pass, line + 1, rest⟩ :: outer)
    exact .move (next_of_entry state line raw rest outer entry text enters readable)
      (Relation.ReflTransGen.trans inside (ih outer))

/-- Reading a file ends, and with what the recursive reader gives. -/
theorem start_leads (reader : Reader) (path : Path) (text : String)
    (closed : reader.openFiles = []) (readable : system.read path.normalize = .ok text) :
    ∃ place done, reader.read system path = .ok ((reader.files.number path.normalize).1, done) ∧
      (start reader path text).Leads system (finished place done) := by
  have reads := Reader.reads_readFile system path none .initial reader closed
  generalize result : Reader.readFile system (system.fileCount + 1) path none .initial reader =
    returned at reads
  cases reads with
  | unreadable failed => cases readable.symm.trans failed
  | @passed other state fatal found taken =>
    cases readable.symm.trans found
    refine ⟨state.place, .finish state fatal, ?_, leads_of_takesIn taken []⟩
    rw [Reader.read, result]

/-! ### What a move does -/

/-- The files that are being read, innermost first. -/
def openFiles : Progress → List Path
  | reading state _ _ _ => state.reader.openFiles
  | finished _ reader => reader.openFiles

/-- The file of the pass that is going on and those that wait, innermost first. -/
def nesting : Progress → List Path
  | reading state _ _ outer => state.pass.path :: outer.map (·.pass.path)
  | finished _ _ => []

/-- A line is taken in within its file, a file is closed, or a file is entered. -/
theorem next_cases (state : PassState) (line : Nat) (ahead : List String) (outer : List Level)
    (later : Progress) (moved : (reading state line ahead outer).next system = some later) :
    (∃ after rest, state.Keeps after ∧ later = reading after (line + 1) rest outer) ∨
    (∃ last fatal, state.Keeps last ∧ later = close last fatal outer) ∨
    ∃ raw rest entry text, state.entryAt? system line raw = some entry ∧
      system.read entry.target.normalize = .ok text ∧
      later = reading (.opening entry.state.reader entry.target.normalize
        (some entry.state.pass.dialect) entry.state.place) 0 (Text.lines text)
        (⟨entry.state.pass, line + 1, rest⟩ :: outer) := by
  cases ahead with
  | nil =>
    cases moved
    exact .inr (.inl ⟨state, none, .refl state, rfl⟩)
  | cons raw rest =>
    cases enters : state.entryAt? system line raw with
    | none =>
      match stepped : state.step system .refuse line raw with
      | (after, none) =>
        simp only [next, enters, stepped, Option.some.injEq] at moved
        exact .inl ⟨after, rest, .of_step stepped, moved.symm⟩
      | (last, some error) =>
        simp only [next, enters, stepped, Option.some.injEq] at moved
        exact .inr (.inl ⟨last, some error, .of_step stepped, moved.symm⟩)
    | some entry =>
      have keeps := PassState.Keeps.of_entry enters
      cases read : system.read entry.target.normalize with
      | error failure =>
        simp only [next, enters, read, Option.some.injEq] at moved
        -- The file cannot be read, and the pass goes on after a report.
        have reported :
            state.Keeps (entry.state.report line (.unresolvedInclude entry.reference)) :=
          { keeps with }
        exact .inl ⟨_, rest, reported, moved.symm⟩
      | ok text =>
        rw [next_of_entry state line raw rest outer entry text enters read] at moved
        exact .inr (.inr ⟨raw, rest, entry, text, enters, read, (Option.some.inj moved).symm⟩)

/-! ### Open files -/

/-- The open files are those whose passes are going on. They are distinct files of the file
system, and known by their normal forms. -/
structure IsNested (system : FileSystem) (point : Progress) : Prop where
  nesting : point.openFiles = point.nesting
  nodup : point.openFiles.Nodup
  normal : ∀ path ∈ point.openFiles, path.normalize = path
  readable : ∀ path ∈ point.openFiles, ∃ text, system.read path = .ok text

namespace IsNested

/-- Files are nested as deeply as there are files at most. -/
theorem bound {point : Progress} (nested : point.IsNested system) :
    point.openFiles.length ≤ system.fileCount := by
  rw [← system.length_paths]
  apply nested.nodup.length_le_of_subset
  intro path member
  obtain ⟨text, read⟩ := nested.readable path member
  exact system.mem_paths_of_read path (nested.normal path member) text read

theorem of_start (reader : Reader) (path : Path) (text : String) (closed : reader.openFiles = [])
    (read : system.read path.normalize = .ok text) :
    (start reader path text).IsNested system := by
  have alone : (start reader path text).openFiles = [path.normalize] :=
    congrArg (path.normalize :: ·) closed
  constructor
  · exact alone
  · rw [alone]
    exact List.nodup_cons.mpr ⟨List.not_mem_nil, .nil⟩
  · rw [alone]
    exact List.forall_mem_singleton.mpr path.normalize_normalize
  · rw [alone]
    exact List.forall_mem_singleton.mpr ⟨text, read⟩

/-- Closing takes the innermost file away, and leaves the files that wait. -/
theorem close {state last : PassState} {line : Nat} {ahead : List String}
    {outer : List Level} (nested : (reading state line ahead outer).IsNested system)
    (keeps : state.Keeps last) (fatal : Option FatalError) :
    (Progress.close last fatal outer).IsNested system := by
  have paths : state.reader.openFiles = state.pass.path :: outer.map (·.pass.path) :=
    nested.nesting
  have left : (Progress.close last fatal outer).openFiles = outer.map (·.pass.path) := by
    have closed : (Reader.finish last fatal).openFiles = outer.map (·.pass.path) := by
      rw [Reader.finish_openFiles, keeps.openFiles, paths, List.tail_cons]
    cases outer with
    | nil | cons => exact closed
  have inside : (Progress.close last fatal outer).openFiles ⊆ state.reader.openFiles := by
    rw [left, paths]
    exact List.subset_cons_self _ _
  refine ⟨?_, ?_, fun path member => nested.normal path (inside member),
    fun path member => nested.readable path (inside member)⟩
  · rw [left]
    cases outer with
    | nil | cons => rfl
  · have distinct : (state.pass.path :: outer.map (·.pass.path)).Nodup := paths ▸ nested.nodup
    rw [left]
    exact distinct.of_cons

/-- A file that is entered was not open. -/
theorem enter {state : PassState} {line : Nat} {raw : String} {ahead rest : List String}
    {outer : List Level} {entry : Entry} {text : String}
    (nested : (reading state line ahead outer).IsNested system)
    (enters : state.entryAt? system line raw = some entry)
    (read : system.read entry.target.normalize = .ok text) :
    (reading (.opening entry.state.reader entry.target.normalize (some entry.state.pass.dialect)
      entry.state.place) 0 (Text.lines text)
      (⟨entry.state.pass, line + 1, rest⟩ :: outer)).IsNested system := by
  have paths : state.reader.openFiles = state.pass.path :: outer.map (·.pass.path) :=
    nested.nesting
  -- The include found a path in normal form, so comparing it with the open ones is enough.
  have keeps := PassState.Keeps.of_entry enters
  have ⟨normal, fresh⟩ := state.entry_target line raw entry enters
  have opened : (reading (.opening entry.state.reader entry.target.normalize
      (some entry.state.pass.dialect) entry.state.place) 0 (Text.lines text)
      (⟨entry.state.pass, line + 1, rest⟩ :: outer)).openFiles =
      entry.target :: state.reader.openFiles := by
    rw [← keeps.openFiles, ← normal]
    simp only [openFiles, PassState.opening, Path.normalize_normalize]
  constructor
  · rw [opened, paths, ← keeps.path, ← normal]
    simp only [Progress.nesting, PassState.opening, FilePass.new, Path.normalize_normalize,
      List.map_cons]
  · rw [opened]
    exact List.nodup_cons.mpr ⟨fresh, nested.nodup⟩
  · rw [opened]
    exact List.forall_mem_cons.mpr ⟨normal, nested.normal⟩
  · rw [opened]
    exact List.forall_mem_cons.mpr ⟨⟨text, normal ▸ read⟩, nested.readable⟩

/-- The step: a line changes no open file, closes the innermost one or enters another one. -/
theorem next {point later : Progress} (nested : point.IsNested system)
    (moved : point.next system = some later) : later.IsNested system := by
  cases point with
  | finished => cases moved
  | reading state line ahead outer =>
    rcases next_cases state line ahead outer later moved with
      ⟨after, rest, keeps, rfl⟩ | ⟨last, fatal, keeps, rfl⟩ |
      ⟨raw, rest, entry, text, enters, read, rfl⟩
    · have same : (reading after (line + 1) rest outer).openFiles = state.reader.openFiles :=
        keeps.openFiles
      refine ⟨same.trans (nested.nesting.trans ?_), same ▸ nested.nodup, same ▸ nested.normal,
        same ▸ nested.readable⟩
      exact congrArg (· :: outer.map (·.pass.path)) keeps.path.symm
    · exact nested.close keeps fatal
    · exact nested.enter enters read

/-- The run: the open files stay so from point to point. -/
theorem leads {point later : Progress} (nested : point.IsNested system)
    (leads : point.Leads system later) : later.IsNested system := by
  induction leads with
  | refl => exact nested
  | tail _ moved ih => exact ih.next moved

end IsNested

/-! ### Includes -/

/-- What a live include at a point does with the file that it finds. -/
structure CutsCycles (system : FileSystem) (point : Progress) : Prop where
  /-- An open file is reported, once and at the line, and reading goes on behind the line. The line
  does not ask for a file. -/
  circular : ∀ state line raw rest outer target found,
    point = reading state line (raw :: rest) outer → state.Finds system raw target found →
    found ∈ state.reader.openFiles →
    ∃ after, (∀ enter, state.step system enter line raw = (after, none)) ∧
      point.next system = some (reading after (line + 1) rest outer) ∧
      after.reader.openFiles = state.reader.openFiles ∧
      after.reader.documents = state.reader.documents ∧
      after.reader.diagnostics = state.reader.diagnostics ++
        [.plain ⟨state.pass.file, line⟩ (.circularInclude (state.includeReference target))]
  /-- Any other file that can be read is what the line asks for, and it is entered, whatever was
  read before. -/
  entered : ∀ state line raw rest outer target found text,
    point = reading state line (raw :: rest) outer → state.Finds system raw target found →
    found ∉ state.reader.openFiles → system.read found = .ok text →
    ∃ (entry : Entry) (inside : PassState), entry.target = found ∧
      (∀ enter, state.step system enter line raw =
        (entry.resume line (entry.enteredBy enter), none)) ∧
      point.next system = some (reading inside 0 (Text.lines text)
        (⟨entry.state.pass, line + 1, rest⟩ :: outer)) ∧
      inside.pass.path = found ∧
      inside.reader.openFiles = found :: state.reader.openFiles ∧
      inside.reader.documents = state.reader.documents ∧
      inside.reader.diagnostics = state.reader.diagnostics

theorem cutsCycles (point : Progress) : point.CutsCycles system where
  circular := by
    rintro state line raw rest outer target found rfl finds isOpen
    -- A file that is open is found but not entered.
    have stays : state.entryAt? system line raw = none := by
      simp only [PassState.entryAt?, finds.parsed, finds.live, if_true, PassState.includeEntryAt?,
        finds.found, isOpen]
    have stepped (enter : Enter) : state.step system enter line raw =
        ((state.noteInclude system line raw target).report line
          (.circularInclude (state.includeReference target)), none) := by
      rw [state.step_of_include system enter line raw target finds.parsed finds.live,
        PassState.includeFile_eq, finds.found]
      simp only [PassState.enterFile, PassState.noteInclude_openFiles, isOpen, if_true]
    refine ⟨_, stepped, by simp only [next, stays, stepped], ?_⟩
    simp only [PassState.noteInclude_eq, PassState.report, Reader.report, and_self]
  entered := by
    rintro state line raw rest outer target found text rfl finds fresh read
    have enters := (PassState.entry_eq_some_iff state system line raw _).mpr
      ⟨target, found, finds, fresh, rfl⟩
    have moved := next_of_entry state line raw rest outer _ text enters
      (finds.normalize_eq.symm ▸ read)
    simp only [finds.normalize_eq] at moved
    refine ⟨_, _, rfl, fun enter => state.step_of_entry system enter line raw _ enters, moved, ?_⟩
    simp only [PassState.noteInclude_eq, PassState.addInclude, PassState.opening, FilePass.new,
      and_self]

end Progress

/-! ### Reading one file after others -/

namespace Reader

theorem read_openFiles (reader done : Reader) (system : FileSystem) (path : Path) (file : FileId)
    (returned : reader.read system path = .ok (file, done)) :
    done.openFiles = reader.openFiles := by
  cases read : system.read path.normalize with
  | error failure => simp [Reader.read, readFile, read] at returned
  | ok text =>
    have run := Runs.of_steps system system.fileCount 0
      (.opening reader path.normalize none .initial) (Text.lines text)
    simp only [Reader.read, (run.readFile_eq read).1, Except.ok.injEq, Prod.mk.injEq] at returned
    rw [← returned.2, finish_openFiles, run.stays.1]
    rfl

theorem readAll_openFiles (reader : Reader) (system : FileSystem) (paths : List Path) :
    (reader.readAll system paths).openFiles = reader.openFiles := by
  induction paths generalizing reader with
  | nil => rfl
  | cons path rest ih =>
    refine (ih (reader.readOrSkip system path)).trans ?_
    unfold readOrSkip
    split
    next file done returned => exact reader.read_openFiles done system path file returned
    · rfl

/-- Reading a file ends, and cuts cycles of includes and nothing else. Whatever was read before,
from every point of the run the moves lead on to what the reader returns, the open files are
distinct files of the file system, and includes do what `Progress.CutsCycles` says. -/
theorem read_cuts_cycles (system : FileSystem) (context : Context) (files : FileSet)
    (before : List Path) (path : Path) :
    let reader := (Reader.new context files).readAll system before
    (∀ failure, system.read path.normalize = .error failure →
      reader.read system path = .error failure) ∧
    ∀ text, system.read path.normalize = .ok text →
      ∃ place done, reader.read system path = .ok ((reader.files.number path.normalize).1, done) ∧
        ∀ point, (Progress.start reader path text).Leads system point →
          point.Leads system (.finished place done) ∧ point.IsNested system ∧
            point.openFiles.length ≤ system.fileCount ∧ point.CutsCycles system := by
  intro reader
  have closed : reader.openFiles = [] := (Reader.new context files).readAll_openFiles system before
  refine ⟨fun failure failed => ?_, fun text readable => ?_⟩
  · simp only [Reader.read, readFile, failed]
  · obtain ⟨place, done, returned, ends⟩ := Progress.start_leads reader path text closed readable
    refine ⟨place, done, returned, fun point leads => ?_⟩
    have nested := (Progress.IsNested.of_start reader path text closed readable).leads leads
    exact ⟨leads.onward ends, nested, nested.bound, point.cutsCycles⟩

-- The cycle is cut however the open file is spelled, and the second include enters once more.
example :
    let files : MemoryFiles := .ofList [
      (⟨"/ws/A.dsc"⟩, "!include B.inc\n!include ./B.inc\n"),
      (⟨"/ws/B.inc"⟩, "!include ../ws/A.dsc\n")]
    let done := (Reader.new (.new (.new 8) (.new ⟨"/ws"⟩ [])) .empty).readAll (.memory files)
      [⟨"/ws/A.dsc"⟩]
    done.diagnostics = [.plain ⟨⟨1⟩, 0⟩ (.circularInclude "../ws/A.dsc"),
        .plain ⟨⟨1⟩, 0⟩ (.circularInclude "../ws/A.dsc")] ∧
      done.documents.map (fun document => (document.path, document.passes)) =
        [(⟨"/ws/B.inc"⟩, 2), (⟨"/ws/A.dsc"⟩, 1)] := by
  decide +kernel

end Reader

end FirmwareWorkspace
