import FirmwareWorkspace.Proofs.Document.Alike
import FirmwareWorkspace.Proofs.Document.Passes
import FirmwareWorkspace.Proofs.FileSystem.Paths

/-!
# Reading the same lines in two places

Two passes that are alike stay so while they take in the same lines, also through the
files that these include. The file systems may differ in the text of one file as long as
that file is being read on both sides, since it is then never entered again. The left
reader may have further files open that the lines do not include.

The readers need not be equally deep in files: open files are distinct files of the file
system, so a reader that starts with one level more than there are files never runs out.
-/
namespace FirmwareWorkspace

/-! ### Symbols of a journal -/

def ReadEvent.symbol? : ReadEvent → Option Symbol
  | emitted symbol => some symbol
  | passed _ => none

/-- The symbols of a journal in the order in which they were emitted. -/
def symbolsOf (events : List ReadEvent) : List Symbol :=
  events.filterMap ReadEvent.symbol?

@[simp] theorem symbolsOf_nil : symbolsOf [] = [] := rfl

@[simp] theorem symbolsOf_append (front back : List ReadEvent) :
    symbolsOf (front ++ back) = symbolsOf front ++ symbolsOf back :=
  List.filterMap_append

@[simp] theorem symbolsOf_passed (pass : FilePass) (events : List ReadEvent) :
    symbolsOf (.passed pass :: events) = symbolsOf events := rfl

@[simp] theorem symbolsOf_emittedUntil (state later : PassState) :
    symbolsOf (state.emittedUntil later) =
      later.pass.symbols.drop state.pass.symbols.length := by
  rw [symbolsOf, PassState.emittedUntil, List.filterMap_map]
  exact List.filterMap_some

/-! ### Includes that find a file -/

namespace PassState

def inclusion (state : PassState) (system : FileSystem) (line : Nat) (raw target : String) :
    Symbol :=
  (state.symbol .inclusion line raw (state.includeReference target)
    (state.includeReference target)).withTarget
    (state.reader.resolver.resolve system (state.includeReference target)
      (some state.pass.path)).1.path?

theorem noteInclude_eq (state : PassState) (system : FileSystem) (line : Nat)
    (raw target : String) :
    state.noteInclude system line raw target =
      { state with
        reader := { state.reader with
          resolver := (state.reader.resolver.resolve system (state.includeReference target)
            (some state.pass.path)).2 }
        pass := { state.pass with
          symbols := state.pass.symbols ++ [state.inclusion system line raw target] } } := by
  unfold noteInclude
  rfl

theorem noteInclude_symbols (state : PassState) (system : FileSystem) (line : Nat)
    (raw target : String) :
    (state.noteInclude system line raw target).pass.symbols =
      state.pass.symbols ++ [state.inclusion system line raw target] := by
  rw [noteInclude_eq]

theorem Alike.finds_iff {base : List Frame} {here there : List Symbol} {left right : PassState}
    {system other : FileSystem} (alike : Alike base here there left right)
    (same : system.SamePaths other) (live : ∀ frame ∈ base, frame.live = true)
    (raw target : String) (path : Path) :
    left.Finds system raw target path ↔ right.Finds other raw target path := by
  have active := alike.isActive_eq live
  have resolved := congrArg Prod.fst (alike.resolve_eq same target)
  constructor
  · intro finds
    exact ⟨finds.parsed, active.trans finds.live, resolved.symm.trans finds.found⟩
  · intro finds
    exact ⟨finds.parsed, active.symm.trans finds.live, resolved.trans finds.found⟩

namespace Finds

variable {state : PassState} {system : FileSystem} {raw target : String} {path : Path}

theorem emits (finds : state.Finds system raw target path) (line : Nat) (later : PassState)
    (noted : later.pass.symbols = (state.noteInclude system line raw target).pass.symbols) :
    ∃ symbol ∈ symbolsOf (state.emittedUntil later), symbol.kind = .inclusion ∧
      symbol.target = some path := by
  refine ⟨state.inclusion system line raw target, ?_, rfl, congrArg Resolution.path? finds.found⟩
  rw [symbolsOf_emittedUntil, noted, noteInclude_symbols, List.drop_left]
  exact .head _

/-- A file that is being read is not entered, but its inclusion is noted. -/
theorem step_symbols (finds : state.Finds system raw target path) (line : Nat)
    (reading : path ∈ state.reader.openFiles) :
    (state.step system .refuse line raw).1.pass.symbols =
      (state.noteInclude system line raw target).pass.symbols := by
  have circular : (state.noteInclude system line raw target).enterFile .refuse line
      (state.includeReference target) path = (state.noteInclude system line raw target).report line
        (.circularInclude (state.includeReference target)) := if_pos reading
  rw [step_of_include state system .refuse line raw target finds.parsed finds.live,
    includeFile_eq, finds.found]
  simp only [circular]
  rfl

end Finds

end PassState

/-! ### Another text for one file -/

namespace MemoryFiles

/-- The files with another text for one of them. -/
def withText (memory : MemoryFiles) (path : Path) (text : String) : MemoryFiles :=
  ⟨memory.files.map fun (file, old) => (file, if file = path.normalize then text else old)⟩

variable (memory : MemoryFiles) (path : Path) (text : String)

theorem paths_withText : (memory.withText path text).paths = memory.paths := by
  rw [paths, withText, List.map_map]
  rfl

theorem samePaths_withText :
    FileSystem.SamePaths (.memory memory) (.memory (memory.withText path text)) where
  contains := by
    have kept (files : MemoryFiles) (place : Path) :
        files.contains place = files.paths.any (·.startsWith place.normalize) := by
      simp only [MemoryFiles.contains, paths, List.any_map, Function.comp_def]
    funext place
    simp only [FileSystem.contains, kept, paths_withText]
  search root name := by
    have kept (files : MemoryFiles) : files.search root name = files.paths.filterMap fun file =>
        if file.startsWith root.normalize && file.fileName? == some name then some file
        else none := by
      simp only [MemoryFiles.search, paths, List.filterMap_map, Function.comp_def]
    simp only [FileSystem.search, kept, paths_withText]

theorem find_normalize : memory.find? path.normalize = memory.find? path := by
  rw [find?, find?, Path.normalize_normalize]

theorem find_withText (place : Path) :
    (memory.withText path text).find? place =
      (memory.find? place).map fun old =>
        if place.normalize = path.normalize then text else old := by
  rw [find?, find?, withText]
  induction memory.files with
  | nil => rfl
  | cons file rest ih =>
    rw [List.map_cons, List.lookup_cons, List.lookup_cons, ih]
    by_cases same : place.normalize = file.1
    · simp [same]
    · simp [beq_eq_false_iff_ne.mpr same]

/-- Other files than the changed one are read as before. -/
theorem read_withText (place : Path) (unchanged : place.normalize ≠ path.normalize) :
    (FileSystem.memory (memory.withText path text)).read place =
      (FileSystem.memory memory).read place := by
  simp only [FileSystem.read, find_withText, if_neg unchanged, Option.map_id_fun', id]

end MemoryFiles

/-! ### Runs side by side -/

namespace PassState

/-- Two passes that are alike, whatever symbols they have added so far. -/
def Twins (base : List Frame) (left right : PassState) : Prop :=
  Alike base (left.pass.symbols.map Symbol.unplaced) (right.pass.symbols.map Symbol.unplaced)
    left right

variable {base : List Frame} {here there : List Symbol} {left right : PassState}

theorem Alike.twins (alike : Alike base here there left right) : Twins base left right :=
  { alike with symbols := ⟨[], by simp, by simp⟩ }

theorem Alike.emitted_eq {later next : PassState}
    (alike : Alike base (left.pass.symbols.map Symbol.unplaced)
      (right.pass.symbols.map Symbol.unplaced) later next) :
    (symbolsOf (left.emittedUntil later)).map Symbol.unplaced =
      (symbolsOf (right.emittedUntil next)).map Symbol.unplaced := by
  obtain ⟨added, ours, theirs⟩ := alike.symbols
  have dropped (state : PassState) (symbols : List Symbol)
      (extended : symbols.map Symbol.unplaced = state.pass.symbols.map Symbol.unplaced ++ added) :
      (symbols.drop state.pass.symbols.length).map Symbol.unplaced = added := by
    rw [List.map_drop, extended]
    exact List.drop_left' (List.length_map _)
  rw [symbolsOf_emittedUntil, symbolsOf_emittedUntil, dropped left _ ours, dropped right _ theirs]

theorem Alike.opening (alike : Alike base here there left right) (path : Path) :
    Twins [] (.opening left.reader path (some left.pass.dialect) left.place)
      (.opening right.reader path (some right.pass.dialect) right.place) where
  definitions := alike.definitions
  pcds := alike.pcds
  resolver := alike.resolver
  place := alike.place
  dialect := by rw [alike.dialect]; rfl
  directory := rfl
  stack := rfl
  symbols := ⟨[], rfl, rfl⟩

theorem Alike.resume (alike : Alike base here there left right) {last final : PassState}
    (ended : Twins [] last final) (fatal stopped : Option FatalError) :
    Twins base ⟨.finish last fatal, last.place, left.pass⟩
      ⟨.finish final stopped, final.place, right.pass⟩ := by
  obtain ⟨_, ours⟩ := Reader.finish_eq last fatal
  obtain ⟨_, theirs⟩ := Reader.finish_eq final stopped
  rw [ours, theirs]
  exact { alike.twins with
    definitions := ended.definitions
    pcds := ended.pcds
    resolver := ended.resolver
    place := ended.place }

end PassState

/-- The open files of two readers side by side. The changed file is open on both sides, and
the left reader has those of `hidden` open besides. -/
structure Abreast (paths : List Path) (changed : Path) (hidden : List Path) (depth levels : Nat)
    (left right : List Path) : Prop where
  mem_iff : ∀ path, path ∈ left ↔ path ∈ right ∨ path ∈ hidden
  changed : changed ∈ right
  deepLeft : IsDeep paths depth left
  deepRight : IsDeep paths levels right

theorem Abreast.enter {paths : List Path} {changed : Path} {hidden left right : List Path}
    {depth levels : Nat}
    (abreast : Abreast paths changed hidden (depth + 1) (levels + 1) left right)
    (path : Path) (fresh : path ∉ left) (readable : path ∈ paths) :
    Abreast paths changed hidden depth levels (path :: left) (path :: right) where
  mem_iff other := by simp only [List.mem_cons, abreast.mem_iff, or_assoc]
  changed := .tail _ abreast.changed
  deepLeft := abreast.deepLeft.enter path fresh readable
  deepRight := abreast.deepRight.enter path
    (fun member => fresh ((abreast.mem_iff path).mpr (.inl member))) readable

/-- The lines do not include a hidden file. -/
def Avoids (hidden : List Path) (events : List ReadEvent) : Prop :=
  ∀ symbol ∈ symbolsOf events, symbol.kind = .inclusion →
    ∀ path ∈ hidden, symbol.target ≠ some path

namespace PassState

section Entries

variable {base : List Frame} {left right : PassState} {system other : FileSystem}

/-- A line that enters no file on the left enters none on the right. -/
theorem Twins.entry_none (twins : Twins base left right) (same : system.SamePaths other)
    (live : ∀ frame ∈ base, frame.live = true) (hidden : List Path)
    (mem_iff : ∀ path, path ∈ left.reader.openFiles ↔
      path ∈ right.reader.openFiles ∨ path ∈ hidden)
    (line number : Nat) (raw : String) (stays : left.entryAt? system line raw = none)
    (avoids : Avoids hidden (left.emittedUntil (left.step system .refuse line raw).1)) :
    right.entryAt? other number raw = none := by
  cases enters : right.entryAt? other number raw with
  | none => rfl
  | some entry =>
    obtain ⟨target, path, finds, fresh, _⟩ := (entry_eq_some_iff _ _ _ _ _).mp enters
    have ours := (twins.finds_iff same live raw target path).mpr finds
    -- The left side finds the same file, so it must be open there.
    have reading : path ∈ left.reader.openFiles := by
      refine Decidable.byContradiction fun closed => ?_
      have entered := (entry_eq_some_iff left system line raw _).mpr
        ⟨target, path, ours, closed, rfl⟩
      rw [stays] at entered
      cases entered
    -- It is not open on the right, so it is a hidden one, and its inclusion would show.
    have concealed := ((mem_iff path).mp reading).resolve_left fresh
    obtain ⟨symbol, emitted, kind, found⟩ := ours.emits line _ (ours.step_symbols line reading)
    exact absurd found (avoids symbol emitted kind path concealed)

/-- A line that enters a file on the left enters it on the right. -/
theorem Twins.entry_some (twins : Twins base left right) (same : system.SamePaths other)
    (live : ∀ frame ∈ base, frame.live = true) (hidden : List Path)
    (mem_iff : ∀ path, path ∈ left.reader.openFiles ↔
      path ∈ right.reader.openFiles ∨ path ∈ hidden)
    (line number : Nat) (raw : String) (entry : Entry)
    (enters : left.entryAt? system line raw = some entry) :
    ∃ entered, right.entryAt? other number raw = some entered ∧ entered.target = entry.target ∧
      entry.target.normalize = entry.target ∧ entry.target ∉ left.reader.openFiles ∧
      Alike base (left.pass.symbols.map Symbol.unplaced) (right.pass.symbols.map Symbol.unplaced)
        entry.state entered.state := by
  obtain ⟨target, path, finds, fresh, rfl⟩ := (entry_eq_some_iff _ _ _ _ _).mp enters
  have theirs := (twins.finds_iff same live raw target path).mp finds
  have closed : path ∉ right.reader.openFiles :=
    fun member => fresh ((mem_iff path).mpr (.inl member))
  refine ⟨_, (entry_eq_some_iff right other number raw _).mpr
    ⟨target, path, theirs, closed, rfl⟩, rfl, finds.normalize_eq, fresh, ?_⟩
  exact (twins.noteInclude same line number raw target).addInclude path

end Entries

end PassState

/-- Two runs over the same lines, from alike states to alike states with the same symbols. -/
structure Mirrors (system : FileSystem) (base : List Frame) (levels : Nat) (right : PassState)
    (number : Nat) (lines : List String) (events : List ReadEvent) (outcome : Step)
    (theirs : List ReadEvent) (reached : Step) : Prop where
  run : Runs system levels right number lines theirs reached
  twins : PassState.Twins base outcome.1 reached.1
  fatal : outcome.2.isSome = reached.2.isSome
  symbols : (symbolsOf events).map Symbol.unplaced = (symbolsOf theirs).map Symbol.unplaced

theorem Mirrors.unstopped {system : FileSystem} {base : List Frame} {levels number : Nat}
    {right : PassState} {lines : List String} {events theirs : List ReadEvent}
    {outcome reached : Step}
    (mirrors : Mirrors system base levels right number lines events outcome theirs reached)
    (ends : outcome.2 = none) : reached.2 = none := by
  have same := mirrors.fatal
  rw [ends] at same
  rw [← Option.isNone_iff_eq_none, ← Option.isSome_eq_false_iff]
  exact same.symm

theorem Avoids.left {hidden : List Path} {front back : List ReadEvent}
    (avoids : Avoids hidden (front ++ back)) : Avoids hidden front := by
  intro symbol emitted
  refine avoids symbol ?_
  rw [symbolsOf_append]
  exact List.mem_append_left _ emitted

theorem Avoids.right {hidden : List Path} {front back : List ReadEvent}
    (avoids : Avoids hidden (front ++ back)) : Avoids hidden back := by
  intro symbol emitted
  refine avoids symbol ?_
  rw [symbolsOf_append]
  exact List.mem_append_right _ emitted

/-- Lines have a mirror image from a state on. -/
def IsMirrored (system : FileSystem) (base : List Frame) (levels : Nat) (right : PassState)
    (number : Nat) (lines : List String) (events : List ReadEvent) (outcome : Step) : Prop :=
  ∃ theirs reached, Mirrors system base levels right number lines events outcome theirs reached

/-- Two passes side by side: they are alike, the conditionals around the lines are live, and the
readers are abreast. -/
structure Beside (files : MemoryFiles) (path : Path) (hidden : List Path) (base : List Frame)
    (depth levels : Nat) (left right : PassState) : Prop where
  live : ∀ frame ∈ base, frame.live = true
  twins : PassState.Twins base left right
  abreast : Abreast files.paths path.normalize hidden depth levels left.reader.openFiles
    right.reader.openFiles

namespace Beside

variable {files : MemoryFiles} {path : Path} {text : String} {hidden : List Path}
  {base : List Frame} {depth levels line number : Nat} {left right : PassState} {raw : String}
  {rest : List String} {events : List ReadEvent} {outcome : Step}

/-- The changed file is open, so a file that is entered is another one. -/
theorem read_eq (beside : Beside files path hidden base depth levels left right) (entered : Path)
    (normal : entered.normalize = entered) (fresh : entered ∉ left.reader.openFiles) :
    (FileSystem.memory (files.withText path text)).read entered.normalize =
      (FileSystem.memory files).read entered.normalize := by
  refine files.read_withText path text _ fun equal => fresh ?_
  rw [Path.normalize_normalize, normal] at equal
  rw [equal]
  exact (beside.abreast.mem_iff _).mpr (.inl beside.abreast.changed)

/-- Alike states with the open files of passes that are side by side are side by side. -/
theorem of_twins (beside : Beside files path hidden base depth levels left right)
    {next final : PassState} (twins : PassState.Twins base next final)
    (ours : next.reader.openFiles = left.reader.openFiles)
    (theirs : final.reader.openFiles = right.reader.openFiles) :
    Beside files path hidden base depth levels next final where
  live := beside.live
  twins := twins
  abreast := by
    rw [ours, theirs]
    exact beside.abreast

theorem mirrored_stop (beside : Beside files path hidden base depth levels left right)
    {next : PassState} {error : FatalError}
    (stays : left.entryAt? (.memory files) line raw = none)
    (stopped : left.step (.memory files) .refuse line raw = (next, some error))
    (avoids : Avoids hidden (left.emittedUntil next)) (bare : base = []) :
    IsMirrored (.memory (files.withText path text)) base levels right number (raw :: rest)
      (left.emittedUntil next) (next, some error) := by
  have same := files.samePaths_withText path text
  have stepped := beside.twins.step same beside.live line number raw (.inl bare)
  rw [stopped] at stepped
  have staysToo := beside.twins.entry_none same beside.live hidden beside.abreast.mem_iff line
    number raw stays (by rwa [stopped])
  match reached : right.step (.memory (files.withText path text)) .refuse number raw with
  | (final, none) =>
    rw [reached] at stepped
    cases stepped.2
  | (final, some other) =>
    rw [reached] at stepped
    exact ⟨_, _, .stop staysToo reached, stepped.1.twins, rfl, stepped.1.emitted_eq⟩

theorem mirrored_advance (beside : Beside files path hidden base depth levels left right)
    {next : PassState} (stays : left.entryAt? (.memory files) line raw = none)
    (moved : left.step (.memory files) .refuse line raw = (next, none))
    (avoids : Avoids hidden (left.emittedUntil next))
    (later : ∀ final, Beside files path hidden base depth levels next final →
      IsMirrored (.memory (files.withText path text)) base levels final (number + 1) rest events
        outcome) :
    IsMirrored (.memory (files.withText path text)) base levels right number (raw :: rest)
      (left.emittedUntil next ++ events) outcome := by
  have same := files.samePaths_withText path text
  have stepped := beside.twins.step same beside.live line number raw (.inr (by rw [moved]))
  rw [moved] at stepped
  have staysToo := beside.twins.entry_none same beside.live hidden beside.abreast.mem_iff line
    number raw stays (by rwa [moved])
  match reached : right.step (.memory (files.withText path text)) .refuse number raw with
  | (final, some other) =>
    rw [reached] at stepped
    cases stepped.2
  | (final, none) =>
    rw [reached] at stepped
    have ours := PassState.Keeps.of_step moved
    have theirs := PassState.Keeps.of_step reached
    obtain ⟨others, ended, mirrors⟩ :=
      later final (beside.of_twins stepped.1.twins ours.openFiles theirs.openFiles)
    refine ⟨_, ended, .advance staysToo reached mirrors.run, mirrors.twins, mirrors.fatal, ?_⟩
    rw [symbolsOf_append, symbolsOf_append, List.map_append, List.map_append, mirrors.symbols,
      stepped.1.emitted_eq]

/-- A line enters a file on both sides, from states that are side by side. -/
theorem entered (beside : Beside files path hidden base depth levels left right) (text : String)
    (number : Nat) {entry : Entry}
    (enters : left.entryAt? (.memory files) line raw = some entry) :
    ∃ entered, right.entryAt? (.memory (files.withText path text)) number raw = some entered ∧
      entered.target = entry.target ∧ entry.target.normalize = entry.target ∧
      (FileSystem.memory (files.withText path text)).read entry.target.normalize =
        (FileSystem.memory files).read entry.target.normalize ∧
      entry.target ∉ entry.state.reader.openFiles ∧
      PassState.Alike base (left.pass.symbols.map Symbol.unplaced)
        (right.pass.symbols.map Symbol.unplaced) entry.state entered.state ∧
      Beside files path hidden base depth levels entry.state entered.state := by
  obtain ⟨entered, entersToo, target, normal, fresh, alike⟩ := beside.twins.entry_some
    (files.samePaths_withText path text) beside.live hidden beside.abreast.mem_iff line number raw
    entry enters
  have ours := PassState.Keeps.of_entry enters
  have theirs := PassState.Keeps.of_entry entersToo
  refine ⟨entered, entersToo, target, normal, beside.read_eq _ normal fresh, ?_, alike,
    beside.of_twins alike.twins ours.openFiles theirs.openFiles⟩
  rw [ours.openFiles]
  exact fresh

theorem mirrored_shut (beside : Beside files path hidden base depth levels left right)
    {entry : Entry} (enters : left.entryAt? (.memory files) line raw = some entry)
    (blocked : depth = 0 ∨
      ∃ failure, (FileSystem.memory files).read entry.target.normalize = .error failure)
    (later : ∀ final, Beside files path hidden base depth levels
      (entry.state.report line (.unresolvedInclude entry.reference)) final →
      IsMirrored (.memory (files.withText path text)) base levels final (number + 1) rest events
        outcome) :
    IsMirrored (.memory (files.withText path text)) base levels right number (raw :: rest)
      (left.emittedUntil entry.state ++ events) outcome := by
  obtain ⟨entered, entersToo, target, _, read, _, alike, within⟩ :=
    beside.entered text number enters
  -- The left reader has levels left, so the file itself cannot be read.
  obtain ⟨failure, unreadable⟩ :=
    blocked.resolve_left (Nat.ne_of_gt beside.abreast.deepLeft.pos)
  obtain ⟨others, ended, mirrors⟩ :=
    later _ (within.of_twins (alike.report _ _ _ _).twins rfl rfl)
  refine ⟨_, ended, .shut entersToo (.inr ⟨failure, ?_⟩) mirrors.run, mirrors.twins,
    mirrors.fatal, ?_⟩
  · rw [target, read]
    exact unreadable
  · rw [symbolsOf_append, symbolsOf_append, List.map_append, List.map_append, mirrors.symbols,
      alike.emitted_eq]

/-- Inside an included file there are no conditionals around the lines. -/
theorem opening (beside : Beside files path hidden base (depth + 1) (levels + 1) left right)
    {target : Path} (fresh : target ∉ left.reader.openFiles) (readable : target ∈ files.paths) :
    Beside files path hidden [] depth levels
      (.opening left.reader target (some left.pass.dialect) left.place)
      (.opening right.reader target (some right.pass.dialect) right.place) where
  live _ absent := nomatch absent
  twins := beside.twins.opening target
  abreast := beside.abreast.enter target fresh readable

theorem mirrored_enter (beside : Beside files path hidden base (depth + 1) levels left right)
    {entry : Entry} {included : String} {inner : List ReadEvent} {last : PassState}
    {fatal : Option FatalError} (enters : left.entryAt? (.memory files) line raw = some entry)
    (readable : (FileSystem.memory files).read entry.target.normalize = .ok included)
    (inside : Runs (.memory files) depth (.opening entry.state.reader entry.target.normalize
      (some entry.state.pass.dialect) entry.state.place) 0 (Text.lines included) inner
      (last, fatal))
    (within : ∀ levels final, Beside files path hidden [] depth levels
      (.opening entry.state.reader entry.target.normalize (some entry.state.pass.dialect)
        entry.state.place) final →
      IsMirrored (.memory (files.withText path text)) [] levels final 0 (Text.lines included)
        inner (last, fatal))
    (later : ∀ final, Beside files path hidden base (depth + 1) levels
      ⟨.finish last fatal, last.place, entry.state.pass⟩ final →
      IsMirrored (.memory (files.withText path text)) base levels final (number + 1) rest events
        outcome) :
    IsMirrored (.memory (files.withText path text)) base levels right number (raw :: rest)
      (left.emittedUntil entry.state ++ (inner ++ .passed last.pass :: events)) outcome := by
  obtain ⟨entered, entersToo, target, normal, read, fresh, alike, around⟩ :=
    beside.entered text number enters
  have listed : entry.target.normalize ∈ files.paths := by
    rw [← Path.normalize_normalize]
    exact files.mem_paths_of_read _ included readable
  -- Neither has the right one run out of levels.
  obtain ⟨levels, rfl⟩ : ∃ further, levels = further + 1 :=
    ⟨levels - 1, (Nat.sub_add_cancel beside.abreast.deepRight.pos).symm⟩
  obtain ⟨_, ⟨final, stopped⟩, inner⟩ := within levels _
    (around.opening (by rwa [normal]) listed)
  obtain ⟨others, ended, mirrors⟩ := later _ (around.of_twins
    (alike.resume inner.twins fatal stopped)
    (by rw [Reader.finish_openFiles, inside.stays.1]; rfl)
    (by rw [Reader.finish_openFiles, inner.run.stays.1]; rfl))
  -- The right reader enters the same file and goes on after it.
  have readableToo : (FileSystem.memory (files.withText path text)).read
      entered.target.normalize = .ok included := by
    rw [target, read]
    exact readable
  have insideToo := inner.run
  rw [← target] at insideToo
  refine ⟨_, ended, .enter entersToo readableToo insideToo mirrors.run, mirrors.twins,
    mirrors.fatal, ?_⟩
  simp only [symbolsOf_append, symbolsOf_passed, List.map_append, inner.symbols,
    mirrors.symbols, alike.emitted_eq]

end Beside

/-- Every run has a mirror image on the files with another text for an open file. -/
theorem Runs.mirror (files : MemoryFiles) (path : Path) (text : String) (hidden : List Path)
    {depth line : Nat} {left : PassState} {lines : List String} {events : List ReadEvent}
    {outcome : Step} (run : Runs (.memory files) depth left line lines events outcome)
    (base : List Frame) (right : PassState) (levels number : Nat)
    (beside : Beside files path hidden base depth levels left right)
    (avoids : Avoids hidden events) (sound : base = [] ∨ outcome.2 = none) :
    IsMirrored (.memory (files.withText path text)) base levels right number lines events
      outcome := by
  -- Along the run the passes stay side by side; inside an included file the base is empty again.
  induction run generalizing base right levels number with
  | done => exact ⟨[], (right, none), .done, beside.twins, rfl, rfl⟩
  | stop stays stopped =>
    exact beside.mirrored_stop stays stopped avoids (sound.resolve_right nofun)
  | advance stays moved _ ih =>
    exact beside.mirrored_advance stays moved avoids.left fun final next =>
      ih base final levels (number + 1) next avoids.right sound
  | shut enters blocked _ ih =>
    exact beside.mirrored_shut enters blocked fun final next =>
      ih base final levels (number + 1) next avoids.right sound
  | enter enters readable inside _ innerIH ih =>
    exact beside.mirrored_enter enters readable inside
      (fun levels final next => innerIH [] final levels 0 next avoids.right.left (.inl rfl))
      fun final next => ih base final levels (number + 1) next avoids.right.right sound

end FirmwareWorkspace
