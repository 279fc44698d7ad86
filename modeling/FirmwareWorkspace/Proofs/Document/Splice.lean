import FirmwareWorkspace.Configuration
import FirmwareWorkspace.Proofs.Document.Mirror
import FirmwareWorkspace.Proofs.Resolver.Beside

/-!
# Includes are textual

A live include of a file in the same directory does what the lines of that file would do
in its place, if the file inherits the dialect, closes the conditionals that it opens, is
not stopped by a fatal error and does not include itself again. The tables, the section and
the resolver end up the same, and the same symbols are emitted in the same order, except
for the symbol of the include itself and for the places of things.

The proof reads the included file beside its lines in the place of the include: the first
run has a stack of its own and one more file open, the second stands inside the live
conditionals around the include.
-/
namespace FirmwareWorkspace

/-- An include line of a file in memory that names a file beside it. -/
structure IncludeSite (files : MemoryFiles) (path : Path) where
  text : String
  before : List String
  line : String
  after : List String
  name : String
  directory : Path
  included : String
  found : files.find? path = some text
  lines : Text.lines text = before ++ line :: after
  includes : Directive.ofCode? (Line.code line) = some (.includeFile name)
  parent : path.normalize.parent? = some directory
  beside : files.find? (directory.join ⟨name⟩) = some included
  isName : Path.IsName name
  notParent : name ≠ ".."
  isPlain : Resolver.IsPlain name
  -- The included file has no dialect of its own.
  inherits : Dialect.ofPath? (directory.join ⟨name⟩) = none
  other : directory.join ⟨name⟩ ≠ path.normalize

/-- How a file comes to be read: by which reader, with the dialect of which including file, in
which section and with how many further levels of files below it. -/
structure Reading where
  reader : Reader
  inherited : Option Dialect
  place : SectionState
  levels : Nat

namespace Reading

/-- How a top-level file is read. -/
def top (reader : Reader) (system : FileSystem) : Reading :=
  ⟨reader, none, .initial, system.fileCount⟩

variable (reading : Reading) (system : FileSystem) (path : Path)

def start : PassState :=
  .opening reading.reader path.normalize reading.inherited reading.place

/-- What reading a file gives. -/
def result : Except ReadFailure (FileId × SectionState × Reader) :=
  Reader.readFile system (reading.levels + 1) path reading.inherited reading.place reading.reader

/-- The symbols that reading a file emits, also in the files that it includes. -/
def symbols : List Symbol :=
  symbolsOf (Reader.journal system (reading.levels + 1) path reading.inherited reading.place
    reading.reader)

end Reading

namespace IncludeSite

section Run

variable {files : MemoryFiles} {path : Path} (site : IncludeSite files path) (reading : Reading)

def target : Path :=
  site.directory.join ⟨site.name⟩

def journalBefore : List ReadEvent :=
  (reading.start path).journal (.memory files) (.upTo (.memory files) reading.levels)
    (Reader.journal (.memory files) reading.levels) 0 site.before

/-- What the lines before the include line lead to. -/
def reached : Step :=
  (reading.start path).steps (.memory files) (.upTo (.memory files) reading.levels) 0 site.before

def inclusion : Symbol :=
  (site.reached reading).1.inclusion (.memory files) site.before.length site.line site.name

/-- The including pass when the file is entered. -/
def entered : PassState :=
  ((site.reached reading).1.noteInclude (.memory files) site.before.length site.line
    site.name).addInclude site.target

/-- The included pass at its beginning. -/
def inside : PassState :=
  .opening (site.entered reading).reader site.target
    (some (site.entered reading).pass.dialect) (site.entered reading).place

/-- What the lines of the included file lead to. -/
def within : Step :=
  (site.inside reading).steps (.memory files) (.upTo (.memory files) (reading.levels - 1)) 0
    (Text.lines site.included)

def journalWithin : List ReadEvent :=
  (site.inside reading).journal (.memory files) (.upTo (.memory files) (reading.levels - 1))
    (Reader.journal (.memory files) (reading.levels - 1)) 0 (Text.lines site.included)

/-- The including pass after the included file. -/
def resumed : PassState :=
  ⟨.finish (site.within reading).1 (site.within reading).2, (site.within reading).1.place,
    (site.entered reading).pass⟩

/-- What the lines after the include line lead to. -/
def ended : Step :=
  (site.resumed reading).steps (.memory files) (.upTo (.memory files) reading.levels)
    (site.before.length + 1) site.after

def journalAfter : List ReadEvent :=
  (site.resumed reading).journal (.memory files) (.upTo (.memory files) reading.levels)
    (Reader.journal (.memory files) reading.levels) (site.before.length + 1) site.after

/-- The include line is reached in live code, and the included file closes its conditionals,
is not stopped and does not include itself. -/
structure IsSelfContained : Prop where
  reaches : (site.reached reading).2 = none
  live : (site.reached reading).1.pass.stack.isActive = true
  unstopped : (site.within reading).2 = none
  closes : (site.within reading).1.pass.stack.frames = []
  notAgain : ∀ symbol ∈ symbolsOf (site.journalWithin reading),
    symbol.kind = .inclusion → symbol.target ≠ some site.target

/-- The reader can go as deep as there are files, and neither the including nor the included
file is open. -/
structure IsFresh : Prop where
  deep : IsDeep files.paths (reading.levels + 1) reading.reader.openFiles
  own : path.normalize ∉ reading.reader.openFiles
  target : site.target ∉ reading.reader.openFiles

end Run

end IncludeSite

/-- Readers whose tables and resolver agree apart from places. -/
structure Reader.SameTables (left right : Reader) : Prop where
  definitions : left.definitions.unplaced = right.definitions.unplaced
  pcds : left.pcds.unplaced = right.pcds.unplaced
  resolver : left.resolver = right.resolver

/-- The right symbols are the left ones without an inclusion of a file, apart from places. -/
def LacksInclusion (target : Path) (left right : List Symbol) : Prop :=
  ∃ front inclusion back, left = front ++ inclusion :: back ∧ inclusion.kind = .inclusion ∧
    inclusion.target = some target ∧
    right.map Symbol.unplaced = (front ++ back).map Symbol.unplaced

namespace IncludeSite

/-! ### The include line -/

section Line

variable {files : MemoryFiles} {path : Path} (site : IncludeSite files path)

theorem target_normalize : site.target.normalize = site.target :=
  (Path.join_parent path site.directory site.name site.parent site.isName site.notParent).1

theorem target_parent : site.target.parent? = path.normalize.parent? := by
  rw [site.parent]
  exact (Path.join_parent path site.directory site.name site.parent site.isName site.notParent).2

theorem readable : (FileSystem.memory files).read site.target.normalize = .ok site.included := by
  rw [target_normalize]
  simp only [FileSystem.read, target, site.beside]

theorem readableFile : (FileSystem.memory files).read path.normalize = .ok site.text := by
  simp only [FileSystem.read, MemoryFiles.find_normalize, site.found]

theorem readableSpliced (site : IncludeSite files path) (spliced : String) :
    (FileSystem.memory (files.withText path spliced)).read path.normalize = .ok spliced := by
  simp only [FileSystem.read, MemoryFiles.find_normalize, MemoryFiles.find_withText, site.found,
    if_true, Option.map_some]

/-- The include line refers to the file beside, and nothing is learned from it. -/
theorem resolve_eq (state : PassState) (own : state.pass.path = path.normalize) :
    state.reader.resolver.resolve (.memory files) (state.includeReference site.name)
      (some state.pass.path) = (.found site.target, state.reader.resolver) := by
  have trimmed := Directive.trim_of_includeFile _ _ site.includes
  rw [state.includeReference_of_plain site.name trimmed site.isPlain, own]
  exact state.reader.resolver.resolve_beside files path site.directory site.name site.included
    site.parent site.isName site.notParent trimmed site.isPlain site.beside

theorem finds (state : PassState) (own : state.pass.path = path.normalize)
    (live : state.pass.stack.isActive = true) :
    state.Finds (.memory files) site.line site.name site.target :=
  ⟨site.includes, live, congrArg Prod.fst (site.resolve_eq state own)⟩

end Line

/-! ### Both runs -/

section Runs

variable {files : MemoryFiles} {path : Path}

theorem runsBefore (site : IncludeSite files path) (reading : Reading) :
    Runs (.memory files) reading.levels (reading.start path) 0 site.before
      (site.journalBefore reading) (site.reached reading) :=
  Runs.of_steps _ _ _ _ _

theorem reached_path (site : IncludeSite files path) (reading : Reading) :
    (site.reached reading).1.pass.path = path.normalize :=
  (site.runsBefore reading).stays.2.1

theorem runsWithin (site : IncludeSite files path) (reading : Reading) :
    Runs (.memory files) (reading.levels - 1) (site.inside reading) 0 (Text.lines site.included)
      (site.journalWithin reading) (site.within reading) :=
  Runs.of_steps _ _ _ _ _

theorem runsAfter (site : IncludeSite files path) (reading : Reading) :
    Runs (.memory files) reading.levels (site.resumed reading) (site.before.length + 1) site.after
      (site.journalAfter reading) (site.ended reading) :=
  Runs.of_steps _ _ _ _ _

/-- Entering the file adds its inclusion to the pass and changes nothing else. -/
theorem entered_eq (site : IncludeSite files path) (reading : Reading) :
    site.entered reading =
      let state := (site.reached reading).1
      { state with pass := { state.pass with
        symbols := state.pass.symbols ++ [site.inclusion reading]
        includes := state.pass.includes ++ [site.target] } } := by
  have kept := congrArg Prod.snd
    (site.resolve_eq (site.reached reading).1 (site.reached_path reading))
  rw [entered, PassState.noteInclude_eq, kept]
  rfl

theorem inclusion_target (site : IncludeSite files path) (reading : Reading) :
    (site.inclusion reading).target = some site.target := by
  rw [inclusion, PassState.inclusion,
    site.resolve_eq (site.reached reading).1 (site.reached_path reading)]
  rfl

theorem inside_eq (site : IncludeSite files path) (reading : Reading) :
    site.inside reading =
      .opening (site.reached reading).1.reader site.target
        (some (site.reached reading).1.pass.dialect) (site.reached reading).1.place := by
  rw [inside, entered_eq]

end Runs

end IncludeSite

/-! ### States around an include -/

namespace PassState

variable {state other last final : PassState} {target : Path}

/-- The lines of an included file begin like the file itself, inside further conditionals. -/
theorem Twins.enter (twins : Twins [] state other) (inherits : Dialect.ofPath? target = none)
    (beside : target.parent? = state.pass.path.parent?) :
    Twins (other.pass.stack.frames.map Frame.unplaced)
      (.opening state.reader target (some state.pass.dialect) state.place) other where
  definitions := twins.definitions
  pcds := twins.pcds
  resolver := twins.resolver
  place := twins.place
  dialect := by
    rw [opening, inherits]
    exact twins.dialect
  directory := beside.trans twins.directory
  stack := rfl
  symbols := ⟨[], by simp, by simp⟩

/-- They end like the file itself if it has closed its conditionals. -/
theorem Twins.leave {base : List Frame} {pass : FilePass} (twins : Twins base last final)
    (fatal : Option FatalError) (closed : last.pass.stack.frames = [])
    (around : base = pass.stack.frames.map Frame.unplaced)
    (beside : last.pass.path.parent? = pass.path.parent?)
    (dialect : last.pass.dialect = pass.dialect) :
    Twins [] ⟨.finish last fatal, last.place, pass⟩ final := by
  obtain ⟨_, finished⟩ := Reader.finish_eq last fatal
  rw [finished]
  exact {
    definitions := twins.definitions
    pcds := twins.pcds
    resolver := twins.resolver
    place := twins.place
    dialect := dialect.symm.trans twins.dialect
    directory := beside.symm.trans twins.directory
    stack := by
      have above := twins.stack
      rw [ConditionalStack.Over, closed, around] at above
      rw [ConditionalStack.Over, above]
      simp
    symbols := ⟨[], by simp, by simp⟩ }

theorem Twins.finish (twins : Twins [] last final) (fatal stopped : Option FatalError) :
    (Reader.finish last fatal).SameTables (Reader.finish final stopped) := by
  obtain ⟨_, ours⟩ := Reader.finish_eq last fatal
  obtain ⟨_, theirs⟩ := Reader.finish_eq final stopped
  rw [ours, theirs]
  exact ⟨twins.definitions, twins.pcds, twins.resolver⟩

theorem Twins.refl (state : PassState) : Twins [] state state where
  definitions := rfl
  pcds := rfl
  resolver := rfl
  place := rfl
  dialect := rfl
  directory := rfl
  stack := (List.append_nil _).symm
  symbols := ⟨[], by simp, by simp⟩

end PassState

namespace IncludeSite

section Splice

variable {files : MemoryFiles} {path : Path} {reading : Reading}

/-! ### Open files -/

theorem deep (site : IncludeSite files path) (fresh : site.IsFresh reading) :
    IsDeep files.paths reading.levels (path.normalize :: reading.reader.openFiles) :=
  fresh.deep.enter path.normalize fresh.own (files.mem_paths_of_find path site.text site.found)

/-- A reader that is not reading anything can read the file. -/
theorem isFresh_top (site : IncludeSite files path) (reader : Reader)
    (idle : reader.openFiles = []) : site.IsFresh (.top reader (.memory files)) where
  deep := by
    rw [Reading.top, idle]
    exact IsDeep.idle (.memory files)
  own := by
    rw [Reading.top, idle]
    exact List.not_mem_nil
  target := by
    rw [Reading.top, idle]
    exact List.not_mem_nil

theorem levels_eq (site : IncludeSite files path) (fresh : site.IsFresh reading) :
    reading.levels - 1 + 1 = reading.levels :=
  Nat.sub_add_cancel (site.deep fresh).pos

theorem abreast (site : IncludeSite files path) (fresh : site.IsFresh reading) :
    Abreast files.paths path.normalize [] reading.levels reading.levels
      (path.normalize :: reading.reader.openFiles)
      (path.normalize :: reading.reader.openFiles) where
  mem_iff _ := by simp only [List.not_mem_nil, or_false]
  changed := .head _
  deepLeft := site.deep fresh
  deepRight := site.deep fresh

theorem target_not_open (site : IncludeSite files path) (fresh : site.IsFresh reading) :
    site.target ∉ path.normalize :: reading.reader.openFiles := by
  rw [List.mem_cons, not_or]
  exact ⟨site.other, fresh.target⟩

/-- Inside the included file, that file is the one further open file. -/
theorem abreastWithin (site : IncludeSite files path) (fresh : site.IsFresh reading) :
    Abreast files.paths path.normalize [site.target] (reading.levels - 1) reading.levels
      (site.target :: path.normalize :: reading.reader.openFiles)
      (path.normalize :: reading.reader.openFiles) where
  mem_iff _ := by rw [List.mem_cons, List.mem_singleton, or_comm]
  changed := .head _
  deepLeft := by
    have deep := site.deep fresh
    rw [← site.levels_eq fresh] at deep
    refine deep.enter site.target (site.target_not_open fresh) ?_
    rw [← site.target_normalize]
    exact files.mem_paths_of_find _ site.included site.beside
  deepRight := site.deep fresh

theorem reached_openFiles (site : IncludeSite files path) (reading : Reading) :
    (site.reached reading).1.reader.openFiles = path.normalize :: reading.reader.openFiles :=
  (site.runsBefore reading).stays.1

/-! ### The include -/

/-- The run over the file with the include line. -/
theorem runsWhole (site : IncludeSite files path) (fresh : site.IsFresh reading)
    (contained : site.IsSelfContained reading) :
    Runs (.memory files) reading.levels (reading.start path) 0 (Text.lines site.text)
      (site.journalBefore reading ++
        ((site.reached reading).1.emittedUntil (site.entered reading) ++
          (site.journalWithin reading ++
            .passed (site.within reading).1.pass :: site.journalAfter reading)))
      (site.ended reading) := by
  have closed : site.target ∉ (site.reached reading).1.reader.openFiles := by
    rw [reached_openFiles]
    exact site.target_not_open fresh
  have enters := (PassState.entry_eq_some_iff (site.reached reading).1 (.memory files)
    site.before.length site.line _).mpr ⟨site.name, site.target,
      site.finds _ (site.reached_path reading) contained.live, closed, rfl⟩
  -- The file itself was open, so at least one level is left for the included one.
  have within := site.runsWithin reading
  have after := site.runsAfter reading
  rw [inside, ← site.target_normalize] at within
  rw [← site.levels_eq fresh] at after
  have whole := Runs.enter enters site.readable within after
  rw [site.levels_eq fresh] at whole
  rw [site.lines]
  refine (site.runsBefore reading).append contained.reaches ?_
  rwa [Nat.zero_add]

/-! ### The lines in its place -/

theorem mirrorBefore (site : IncludeSite files path) (text : String)
    (fresh : site.IsFresh reading) :
    IsMirrored (.memory (files.withText path text)) [] reading.levels (reading.start path) 0
      site.before (site.journalBefore reading) (site.reached reading) :=
  (site.runsBefore reading).mirror files path text [] [] _ _ _
    ⟨(fun _ none => nomatch none), .refl _, site.abreast fresh⟩ (fun _ _ _ _ none => nomatch none)
    (.inl rfl)

/-- The lines of the included file are read inside the conditionals around the include. -/
theorem mirrorWithin (site : IncludeSite files path) (text : String)
    (fresh : site.IsFresh reading) (contained : site.IsSelfContained reading)
    (state : PassState) (number : Nat)
    (twins : PassState.Twins [] (site.reached reading).1 state)
    (opened : state.reader.openFiles = path.normalize :: reading.reader.openFiles) :
    IsMirrored (.memory (files.withText path text)) (state.pass.stack.frames.map Frame.unplaced)
      reading.levels state number (Text.lines site.included) (site.journalWithin reading)
      (site.within reading) := by
  -- The include is live, and so are all the conditionals around it.
  have live : ∀ frame ∈ state.pass.stack.frames.map Frame.unplaced, frame.live = true := by
    have active : state.pass.stack.isActive = true :=
      (twins.isActive_eq fun _ none => nomatch none).trans contained.live
    rw [ConditionalStack.isActive, List.all_eq_true] at active
    intro frame member
    obtain ⟨placed, listed, rfl⟩ := List.mem_map.mp member
    exact active placed listed
  have begun : PassState.Twins (state.pass.stack.frames.map Frame.unplaced)
      (site.inside reading) state := by
    rw [inside_eq]
    refine twins.enter site.inherits ?_
    rw [site.reached_path]
    exact site.target_parent
  refine (site.runsWithin reading).mirror files path text [site.target] _ state _ number
    ⟨live, begun, ?_⟩ ?_ (.inr contained.unstopped)
  · have inner : (site.inside reading).reader.openFiles =
        site.target :: path.normalize :: reading.reader.openFiles := by
      rw [inside_eq]
      exact congrArg (site.target :: ·) (site.reached_openFiles reading)
    rw [inner, opened]
    exact site.abreastWithin fresh
  · intro symbol emitted kind path listed
    rw [List.mem_singleton.mp listed]
    exact contained.notAgain symbol emitted kind

/-- After them, the file goes on as after the include. -/
theorem mirrorAfter (site : IncludeSite files path) (text : String)
    (fresh : site.IsFresh reading) (contained : site.IsSelfContained reading)
    (base : List Frame) (state : PassState) (number : Nat)
    (around : base = (site.reached reading).1.pass.stack.frames.map Frame.unplaced)
    (twins : PassState.Twins base (site.within reading).1 state)
    (opened : state.reader.openFiles = path.normalize :: reading.reader.openFiles) :
    IsMirrored (.memory (files.withText path text)) [] reading.levels state number site.after
      (site.journalAfter reading) (site.ended reading) := by
  obtain ⟨openFiles, own, dialect, _⟩ := (site.runsWithin reading).stays
  rw [inside_eq] at openFiles own dialect
  -- The included file has closed its conditionals and kept the dialect, so the states around
  -- it agree without a base.
  have left : PassState.Twins [] (site.resumed reading) state := by
    refine twins.leave _ contained.closes ?_ ?_ ?_
    · rw [entered_eq]
      exact around
    · rw [own, entered_eq]
      refine Eq.trans site.target_parent ?_
      rw [site.reached_path]
    · rw [dialect, entered_eq, PassState.opening, target, site.inherits]
      rfl
  refine (site.runsAfter reading).mirror files path text [] [] state _ number
    ⟨(fun _ none => nomatch none), left, ?_⟩ (fun _ _ _ _ none => nomatch none) (.inl rfl)
  have closed : (site.resumed reading).reader.openFiles =
      path.normalize :: reading.reader.openFiles := by
    rw [resumed, Reader.finish_openFiles, openFiles]
    exact site.reached_openFiles reading
  rw [closed, opened]
  exact site.abreast fresh

/-- The run over the file with the lines of the included file in the place of the include. -/
theorem runsSpliced (site : IncludeSite files path) (spliced : String)
    (spells : Text.lines spliced = site.before ++ Text.lines site.included ++ site.after)
    (fresh : site.IsFresh reading) (contained : site.IsSelfContained reading) :
    ∃ theirs final, Runs (.memory (files.withText path spliced)) reading.levels
      (reading.start path) 0 (Text.lines spliced) theirs final ∧
      PassState.Twins [] (site.ended reading).1 final.1 ∧
      (symbolsOf theirs).map Symbol.unplaced =
        (symbolsOf (site.journalBefore reading) ++
          (symbolsOf (site.journalWithin reading) ++
            symbolsOf (site.journalAfter reading))).map Symbol.unplaced := by
  -- The lines before the include, those of the file in the state reached there, and the lines
  -- after it; none of the first two pieces stops the file.
  obtain ⟨front, first, before⟩ := site.mirrorBefore spliced fresh
  have opened : first.1.reader.openFiles = path.normalize :: reading.reader.openFiles :=
    before.run.stays.1
  obtain ⟨middle, second, within⟩ := site.mirrorWithin spliced fresh contained first.1
    site.before.length before.twins opened
  obtain ⟨back, third, after⟩ := site.mirrorAfter spliced fresh contained _ second.1
    (site.before.length + (Text.lines site.included).length)
    (by rw [before.twins.stack, List.append_nil]) within.twins
    (within.run.stays.1.trans opened)
  have inner := within.run.append (within.unstopped contained.unstopped) after.run
  have whole := before.run.append (before.unstopped contained.reaches) (by rwa [Nat.zero_add])
  rw [← List.append_assoc, ← spells] at whole
  refine ⟨_, third, whole, after.twins, ?_⟩
  simp only [symbolsOf_append, List.map_append, before.symbols, within.symbols, after.symbols]

/-- An include reads like the lines of the included file in its place. -/
theorem readFile_splice (site : IncludeSite files path) (reading : Reading) (spliced : String)
    (spells : Text.lines spliced = site.before ++ Text.lines site.included ++ site.after)
    (fresh : site.IsFresh reading) (contained : site.IsSelfContained reading) :
    ∃ file after done other,
      reading.result (.memory files) path = .ok (file, after, done) ∧
      reading.result (.memory (files.withText path spliced)) path = .ok (file, after, other) ∧
      done.SameTables other ∧
      LacksInclusion site.target (reading.symbols (.memory files) path)
        (reading.symbols (.memory (files.withText path spliced)) path) := by
  obtain ⟨theirs, final, run, twins, symbols⟩ := site.runsSpliced spliced spells fresh contained
  obtain ⟨ourReading, ourJournal⟩ := (site.runsWhole fresh contained).readFile_eq site.readableFile
  obtain ⟨theirReading, theirJournal⟩ := run.readFile_eq (site.readableSpliced spliced)
  rw [Reading.symbols, Reading.symbols, theirJournal, ourJournal]
  -- What the include line emits itself is what the other file lacks.
  have noted : symbolsOf ((site.reached reading).1.emittedUntil (site.entered reading)) =
      [site.inclusion reading] := by
    rw [symbolsOf_emittedUntil, entered_eq]
    exact List.drop_left
  refine ⟨_, _, _, .finish final.1 final.2, ourReading, ?_, twins.finish _ _,
    symbolsOf (site.journalBefore reading), site.inclusion reading,
    symbolsOf (site.journalWithin reading) ++ symbolsOf (site.journalAfter reading),
    ?_, rfl, site.inclusion_target reading, ?_⟩
  · rw [twins.place]
    exact theirReading
  · simp only [symbolsOf_append, symbolsOf_passed, symbolsOf_nil, noted, List.append_nil,
      List.singleton_append]
  · simp only [symbolsOf_append, symbolsOf_passed, symbolsOf_nil, List.append_nil]
    exact symbols

end Splice

end IncludeSite

/-! ### A platform and its board -/

/-- A platform with an include inside a live conditional. -/
def boardFiles : MemoryFiles :=
  .ofList [
    (⟨"/ws/P.dsc"⟩, "DEFINE A = 1\n!ifdef A\n!include board.inc\n!endif\nDEFINE C = $(B)\n"),
    (⟨"/ws/board.inc"⟩, "!if $(A) == 1\nDEFINE B = 2\n!endif\n[Components]\n")]

/-- The platform with the lines of the board in the place of the include. -/
def boardText : String :=
  "DEFINE A = 1\n!ifdef A\n!if $(A) == 1\nDEFINE B = 2\n!endif\n[Components]\n" ++
    "!endif\nDEFINE C = $(B)\n"

def boardReading : Reading :=
  .top (.new { Configuration.initial with workspaceRoot := ⟨"/ws"⟩ }.context .empty)
    (.memory boardFiles)

def boardSite : IncludeSite boardFiles ⟨"/ws/P.dsc"⟩ where
  text := "DEFINE A = 1\n!ifdef A\n!include board.inc\n!endif\nDEFINE C = $(B)\n"
  before := ["DEFINE A = 1", "!ifdef A"]
  line := "!include board.inc"
  after := ["!endif", "DEFINE C = $(B)"]
  name := "board.inc"
  directory := ⟨"/ws"⟩
  included := "!if $(A) == 1\nDEFINE B = 2\n!endif\n[Components]\n"
  found := by decide +kernel
  lines := by decide +kernel
  includes := by decide +kernel
  parent := by decide +kernel
  beside := by decide +kernel
  isName := by constructor <;> decide +kernel
  notParent := by decide
  isPlain := by constructor <;> decide +kernel
  inherits := by decide +kernel
  other := by decide +kernel

/-- The platform emits the symbols of the board in the place of the include. -/
theorem boardSite_splices :
    boardSite.IsSelfContained boardReading ∧
      LacksInclusion ⟨"/ws/board.inc"⟩ (boardReading.symbols (.memory boardFiles) ⟨"/ws/P.dsc"⟩)
        (boardReading.symbols (.memory (boardFiles.withText ⟨"/ws/P.dsc"⟩ boardText))
          ⟨"/ws/P.dsc"⟩) := by
  have fresh : boardSite.IsFresh boardReading := boardSite.isFresh_top _ rfl
  have ⟨reaches, live⟩ : (boardSite.reached boardReading).2 = none ∧
      (boardSite.reached boardReading).1.pass.stack.isActive = true := by
    decide +kernel
  have ⟨unstopped, closes, notAgain⟩ : (boardSite.within boardReading).2 = none ∧
      (boardSite.within boardReading).1.pass.stack.frames = [] ∧
      ∀ symbol ∈ symbolsOf (boardSite.journalWithin boardReading),
        symbol.kind = .inclusion → symbol.target ≠ some boardSite.target := by
    decide +kernel
  have contained : boardSite.IsSelfContained boardReading :=
    ⟨reaches, live, unstopped, closes, notAgain⟩
  have target : boardSite.target = ⟨"/ws/board.inc"⟩ := by decide +kernel
  obtain ⟨_, _, _, _, _, _, _, lacks⟩ :=
    boardSite.readFile_splice boardReading boardText (by decide +kernel) fresh contained
  rw [target] at lacks
  exact ⟨contained, lacks⟩

/-- A platform that includes a file whose name no reference can spell. -/
def questionFiles : MemoryFiles :=
  .ofList [(⟨"/ws/P.dsc"⟩, "!include a?b.inc\n"), (⟨"/ws/a?b.inc"⟩, "DEFINE Y = 1\n")]

/-- The lookup rejects the name, so the definition in the file beside is missing. -/
theorem questionFiles_not_spliced :
    Text.lines "!include a?b.inc\n" = ["!include a?b.inc"] ∧
      Text.lines "DEFINE Y = 1\n" = ["DEFINE Y = 1"] ∧
      Directive.ofCode? (Line.code "!include a?b.inc") = some (.includeFile "a?b.inc") ∧
      Path.IsName "a?b.inc" ∧
      questionFiles.find? (Path.join ⟨"/ws"⟩ ⟨"a?b.inc"⟩) = some "DEFINE Y = 1\n" ∧
      Dialect.ofPath? (Path.join ⟨"/ws"⟩ ⟨"a?b.inc"⟩) = none ∧
      ¬∃ file after done other,
        boardReading.result (.memory questionFiles) ⟨"/ws/P.dsc"⟩ = .ok (file, after, done) ∧
        boardReading.result (.memory (questionFiles.withText ⟨"/ws/P.dsc"⟩ "DEFINE Y = 1\n"))
          ⟨"/ws/P.dsc"⟩ = .ok (file, after, other) ∧
        done.SameTables other := by
  refine ⟨by decide +kernel, by decide +kernel, by decide +kernel,
    by constructor <;> decide +kernel, by decide +kernel, by decide +kernel, ?_⟩
  rintro ⟨file, after, done, other, included, spliced, same⟩
  have missing : (boardReading.result (.memory questionFiles) ⟨"/ws/P.dsc"⟩).toOption.map
      (·.2.2.definitions.isDefined "Y") = some false := by
    decide +kernel
  have defined : (boardReading.result (.memory (questionFiles.withText ⟨"/ws/P.dsc"⟩
      "DEFINE Y = 1\n")) ⟨"/ws/P.dsc"⟩).toOption.map (·.2.2.definitions.isDefined "Y") =
        some true := by
    decide +kernel
  rw [included] at missing
  rw [spliced] at defined
  have kept : false = true := (Option.some.inj missing).symm.trans
    ((DefinitionTable.isDefined_congr same.definitions "Y").trans (Option.some.inj defined))
  cases kept

end FirmwareWorkspace
