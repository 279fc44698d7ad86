import FirmwareWorkspace.Proofs.Document.Mirror

/-!
# The order of symbols in documents

A journal tells the symbols of all files in the order in which their lines were reached.
Documents hold them file by file: each document keeps the order of its own symbols, since a
file is not entered while it is being read, but the documents themselves stand in the order
in which the first passes over their files ended. A file ends behind the files that it
includes, so lines in front of an include may come later than the lines of the included file.

Main results: `Reader.passedSymbols_journal` for single files and `symbols_recorded` for
all documents of a journal.
-/
namespace FirmwareWorkspace

/-- The files of a journal in the order in which their first passes ended. -/
def endedFiles (events : List ReadEvent) : List FileId :=
  Registry.addAllNew (· == ·) [] ((passes events).map (·.file))

theorem mem_symbolsOf (events : List ReadEvent) (symbol : Symbol) :
    symbol ∈ symbolsOf events ↔ .emitted symbol ∈ events := by
  rw [symbolsOf, List.mem_filterMap]
  constructor
  · rintro ⟨event, member, found⟩
    cases event with
    | emitted other =>
      cases found
      exact member
    | passed pass => cases found
  · exact fun member => ⟨_, member, rfl⟩

/-- The symbols of one file. -/
def ownSymbols (symbols : List Symbol) (file : FileId) : List Symbol :=
  symbols.filter (·.file = file)

section OwnSymbols

variable {symbols : List Symbol} {file : FileId}

@[simp] theorem ownSymbols_append (front back : List Symbol) (file : FileId) :
    ownSymbols (front ++ back) file = ownSymbols front file ++ ownSymbols back file :=
  List.filter_append ..

theorem ownSymbols_of_owned (owned : ∀ symbol ∈ symbols, symbol.file = file) :
    ownSymbols symbols file = symbols :=
  List.filter_eq_self.mpr fun symbol member => decide_eq_true (owned symbol member)

theorem ownSymbols_of_foreign {owner : FileId} (owned : ∀ symbol ∈ symbols, symbol.file = owner)
    (other : owner ≠ file) : ownSymbols symbols file = [] := by
  apply List.filter_eq_nil_iff.mpr
  intro symbol member
  rw [decide_eq_true_iff, owned symbol member]
  exact other

/-- Leaving out symbols and taking them file by file can be done in either order. -/
theorem filter_flatMap_ownSymbols (files : List FileId) (keep : Symbol → Bool) :
    (files.flatMap (ownSymbols symbols)).filter keep =
      files.flatMap (ownSymbols (symbols.filter keep)) := by
  have own : (fun file => (ownSymbols symbols file).filter keep) =
      ownSymbols (symbols.filter keep) := by
    funext file
    simp only [ownSymbols, List.filter_filter, Bool.and_comm]
  rw [List.filter_flatMap, own]

end OwnSymbols

/-! ### Passes over a file -/

/-- A pass goes over a file that has its number and is being read. -/
structure PassState.IsOpen (state : PassState) : Prop where
  known : state.reader.files.path? state.pass.file = some state.pass.path
  reading : state.pass.path ∈ state.reader.openFiles
  owned : ∀ symbol ∈ state.pass.symbols, symbol.file = state.pass.file

namespace PassState

theorem isOpen_opening (reader : Reader) (path : Path) (inherited : Option Dialect)
    (place : SectionState) :
    (PassState.opening reader path.normalize inherited place).IsOpen where
  known := by
    have named := FileSet.path_number reader.files path.normalize
    rw [Path.normalize_normalize] at named
    exact named
  reading := .head _
  owned _ member := nomatch member

theorem Keeps.isOpen {state later : PassState} (keeps : Keeps state later)
    (isOpen : state.IsOpen) : later.IsOpen where
  known := by
    rw [keeps.files, keeps.file, keeps.path]
    exact isOpen.known
  reading := by
    rw [keeps.openFiles, keeps.path]
    exact isOpen.reading
  owned := keeps.owned isOpen.owned

/-- The including pass goes on with its file still open. -/
theorem IsOpen.resume {system : FileSystem} {depth line : Nat} {state last : PassState}
    {lines : List String} {events : List ReadEvent} {fatal : Option FatalError} {path : Path}
    {inherited : Option Dialect} {place : SectionState} (isOpen : state.IsOpen)
    (inside : Runs system depth (.opening state.reader path inherited place) line lines events
      (last, fatal)) : IsOpen ⟨.finish last fatal, last.place, state.pass⟩ where
  known := by
    rw [Reader.finish_files]
    exact inside.path_known _ _ (FileSet.path_of_number _ path _ _ isOpen.known)
  reading := by
    rw [Reader.finish_openFiles, inside.stays.1]
    exact isOpen.reading
  owned := isOpen.owned

/-- The symbols that a pass emits are added to those that it holds. -/
theorem Keeps.symbols_eq {state later : PassState} (keeps : Keeps state later) :
    state.pass.symbols ++ symbolsOf (state.emittedUntil later) = later.pass.symbols := by
  obtain ⟨added, extended, _⟩ := keeps.symbols
  rw [symbolsOf_emittedUntil, extended, List.drop_left]

end PassState

/-- The symbols of the passes over a file. -/
def passedSymbols (events : List ReadEvent) (file : FileId) : List Symbol :=
  (passesOver events file).flatMap (·.symbols)

@[simp] theorem passedSymbols_nil (file : FileId) : passedSymbols [] file = [] := rfl

@[simp] theorem passedSymbols_emittedUntil_append (state later : PassState)
    (events : List ReadEvent) (file : FileId) :
    passedSymbols (state.emittedUntil later ++ events) file = passedSymbols events file := by
  rw [passedSymbols, passesOver, passes_emittedUntil_append]
  rfl

@[simp] theorem passedSymbols_append (front back : List ReadEvent) (file : FileId) :
    passedSymbols (front ++ back) file = passedSymbols front file ++ passedSymbols back file := by
  simp only [passedSymbols, passesOver, passes_append, List.filter_append, List.flatMap_append]

/-- A pass that ends adds what it holds to the symbols of its file. -/
theorem passedSymbols_passed (pass : FilePass) (events : List ReadEvent) (file : FileId)
    (owned : ∀ symbol ∈ pass.symbols, symbol.file = pass.file) :
    passedSymbols (.passed pass :: events) file =
      ownSymbols pass.symbols file ++ passedSymbols events file := by
  rw [passedSymbols, passesOver, passes_passed]
  by_cases own : pass.file = file
  · rw [ownSymbols_of_owned (own ▸ owned), List.filter_cons_of_pos (by simpa using own)]
    rfl
  · rw [ownSymbols_of_foreign owned own, List.filter_cons_of_neg (by simpa using own)]
    rfl

namespace Runs

variable {system : FileSystem} {depth line : Nat} {state : PassState} {lines : List String}
  {events : List ReadEvent} {outcome : Step}

theorem isOpen (run : Runs system depth state line lines events outcome)
    (isOpen : state.IsOpen) : outcome.1.IsOpen where
  known := by
    rw [run.stays.2.1, run.stays.2.2.2]
    exact run.path_known _ _ isOpen.known
  reading := by
    rw [run.stays.1, run.stays.2.1]
    exact isOpen.reading
  owned := (run.owned isOpen.owned).1

/-- An included file has no symbols of the including one. -/
theorem apart_of_entry {path : Path} {inherited : Option Dialect} {place : SectionState}
    {last : PassState} {fatal : Option FatalError} (isOpen : state.IsOpen)
    (inside : Runs system depth (.opening state.reader path.normalize inherited place) line lines
      events (last, fatal))
    (another : (state.reader.files.number path.normalize).1 ≠ state.pass.file) (file : FileId) :
    ownSymbols state.pass.symbols file = [] ∨
      passedSymbols events file ++ ownSymbols last.pass.symbols file = [] := by
  by_cases own : state.pass.file = file
  · subst own
    have opened := PassState.isOpen_opening state.reader path inherited place
    have known := FileSet.path_of_number _ path.normalize _ _ isOpen.known
    have foreign := inside.passes_file_ne _ _ known (.tail _ isOpen.reading)
    have none : passesOver events state.pass.file = [] :=
      List.filter_eq_nil_iff.mpr fun pass member => by simpa using foreign pass member
    have other : last.pass.file ≠ state.pass.file := by
      rw [inside.stays.2.2.2]
      exact another
    rw [passedSymbols, none, ownSymbols_of_foreign (inside.isOpen opened).owned other]
    exact .inr rfl
  · exact .inl (ownSymbols_of_foreign isOpen.owned own)

/-- For every file, a run emits in their order the symbols that passes over the file end with,
apart from those that its own pass held before and still holds. -/
theorem ownSymbols_eq (run : Runs system depth state line lines events outcome)
    (isOpen : state.IsOpen) (file : FileId) :
    ownSymbols state.pass.symbols file ++ ownSymbols (symbolsOf events) file =
      passedSymbols events file ++ ownSymbols outcome.1.pass.symbols file := by
  induction run with
  | done => exact List.append_nil _
  | @stop _ state _ line raw _ _ _ stopped =>
    have keeps := PassState.Keeps.of_step stopped
    rw [← ownSymbols_append, keeps.symbols_eq, ← List.append_nil (state.emittedUntil _),
      passedSymbols_emittedUntil_append]
    rfl
  | advance _ stepped _ ih =>
    have keeps := PassState.Keeps.of_step stepped
    rw [symbolsOf_append, ownSymbols_append, ← List.append_assoc, ← ownSymbols_append,
      keeps.symbols_eq, passedSymbols_emittedUntil_append]
    exact ih (keeps.isOpen isOpen)
  | shut enters _ _ ih =>
    have keeps := PassState.Keeps.of_entry enters
    rw [symbolsOf_append, ownSymbols_append, ← List.append_assoc, ← ownSymbols_append,
      keeps.symbols_eq, passedSymbols_emittedUntil_append]
    exact ih { keeps.isOpen isOpen with }
  | @enter _ state last line raw _ _ entry inner events fatal _ enters _ inside _ innerIH ih =>
    have keeps := PassState.Keeps.of_entry enters
    have entered := keeps.isOpen isOpen
    have opened := PassState.isOpen_opening entry.state.reader entry.target
      (some entry.state.pass.dialect) entry.state.place
    have inner : ownSymbols (symbolsOf inner) file =
        passedSymbols inner file ++ ownSymbols last.pass.symbols file := innerIH opened
    have later : ownSymbols entry.state.pass.symbols file ++ ownSymbols (symbolsOf events) file =
        _ := ih (entered.resume inside)
    have another := state.entry_file_ne system line raw entry enters _ _ isOpen.known isOpen.reading
    rw [symbolsOf_append, ownSymbols_append, ← List.append_assoc, ← ownSymbols_append,
      keeps.symbols_eq, passedSymbols_emittedUntil_append, passedSymbols_append,
      passedSymbols_passed _ _ _ (inside.isOpen opened).owned, symbolsOf_append, symbolsOf_passed,
      ownSymbols_append, inner]
    -- Either side of the include is without symbols of the file.
    rcases inside.apart_of_entry entered (keeps.file ▸ another) file with none | none
    · rw [none, List.nil_append] at later ⊢
      rw [later]
      simp only [List.append_assoc]
    · rw [none, List.nil_append, later, ← List.append_assoc, none, List.nil_append]

end Runs

/-! ### Documents -/

section Journal

variable (system : FileSystem) (depth : Nat) (path : Path) (inherited : Option Dialect)
  (place : SectionState) (reader : Reader)

/-- Passes over a file hold the symbols of the file in the order in which they were emitted. -/
theorem Reader.passedSymbols_journal :
    passedSymbols (journal system depth path inherited place reader) =
      ownSymbols (symbolsOf (journal system depth path inherited place reader)) := by
  funext file
  rcases readable_or_blocked system depth path.normalize with
    ⟨levels, text, rfl, readable⟩ | blocked
  · have run := Runs.of_steps system levels 0 (.opening reader path.normalize inherited place)
      (Text.lines text)
    have opened := PassState.isOpen_opening reader path inherited place
    have emitted := run.ownSymbols_eq opened file
    rw [journal_succ system levels path inherited place reader text readable, symbolsOf_append,
      symbolsOf_passed, symbolsOf_nil, List.append_nil, passedSymbols_append,
      passedSymbols_passed _ _ _ (run.isOpen opened).owned, passedSymbols_nil, List.append_nil]
    exact emitted.symm
  · rw [journal_unreadable system depth path inherited place reader blocked]
    rfl

theorem Reader.file_mem_endedFiles (symbol : Symbol)
    (member : symbol ∈ symbolsOf (journal system depth path inherited place reader)) :
    symbol.file ∈ endedFiles (journal system depth path inherited place reader) := by
  have own : symbol ∈ ownSymbols (symbolsOf (journal system depth path inherited place reader))
      symbol.file := List.mem_filter.mpr ⟨member, decide_eq_true rfl⟩
  rw [← passedSymbols_journal] at own
  obtain ⟨pass, through, _⟩ := List.mem_flatMap.mp own
  obtain ⟨passed, same⟩ := List.mem_filter.mp through
  rw [endedFiles, Registry.mem_addAllNew_iff, ← of_decide_eq_true same]
  exact .inr (List.mem_map_of_mem passed)

end Journal

/-- The symbols of all documents: file by file in the order in which the files ended. -/
theorem symbols_recorded (events : List ReadEvent) :
    (recorded (passes events)).map (fun document => (document.file, document.symbols)) =
      (endedFiles events).map fun file => (file, passedSymbols events file) := by
  rw [endedFiles, ← files_recorded, List.map_map]
  apply List.map_congr_left
  intro document member
  -- No other document has the file, so the document is the one that its passes give.
  have found := Registry.find_of_mem Document.file _ (nodup_recorded _) document member
  rw [find_recorded] at found
  have held := (documentOf_eq_some _ _ found).1
  simp only [Function.comp_apply, held]
  rfl

end FirmwareWorkspace
