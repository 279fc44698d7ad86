import FirmwareWorkspace.Proofs.Document.Frame
import FirmwareWorkspace.Proofs.FileSet
import FirmwareWorkspace.Proofs.Registry

/-!
# Passes and documents

Every symbol that reading a file emits belongs to one of the passes that its journal
holds, and the other way round. The documents that the reader leaves are these passes,
merged file by file: the symbols of all passes over a file, and the lines that were dead
in every one of them.
-/
namespace FirmwareWorkspace

def ReadEvent.pass? : ReadEvent → Option FilePass
  | emitted _ => none
  | passed pass => some pass

/-- The passes of a journal in the order in which they ended. -/
def passes (events : List ReadEvent) : List FilePass :=
  events.filterMap ReadEvent.pass?

def passesOver (events : List ReadEvent) (file : FileId) : List FilePass :=
  (passes events).filter (·.file = file)

theorem passes_append (front back : List ReadEvent) :
    passes (front ++ back) = passes front ++ passes back :=
  List.filterMap_append

@[simp] theorem passes_emittedUntil (state later : PassState) :
    passes (state.emittedUntil later) = [] := by
  rw [passes, PassState.emittedUntil, List.filterMap_map]
  exact List.filterMap_eq_nil_iff.mpr fun _ _ => rfl

theorem passes_emittedUntil_append (state later : PassState) (events : List ReadEvent) :
    passes (state.emittedUntil later ++ events) = passes events := by
  rw [passes_append, passes_emittedUntil, List.nil_append]

theorem passes_passed (pass : FilePass) (events : List ReadEvent) :
    passes (.passed pass :: events) = pass :: passes events := rfl

@[simp] theorem passes_nil : passes [] = [] := rfl

/-- The passes of a line that enters a file: those within the file, the one over the file, and those
behind the line. -/
theorem forall_passes_enter {motive : FilePass → Prop} {state later : PassState}
    {inner events : List ReadEvent} {last : FilePass} (within : ∀ pass ∈ passes inner, motive pass)
    (ended : motive last) (behind : ∀ pass ∈ passes events, motive pass) :
    ∀ pass ∈ passes (state.emittedUntil later ++ (inner ++ .passed last :: events)),
      motive pass := by
  rw [passes_emittedUntil_append, passes_append, passes_passed]
  exact List.forall_mem_append.mpr ⟨within, List.forall_mem_cons.mpr ⟨ended, behind⟩⟩

theorem mem_passes (events : List ReadEvent) (pass : FilePass) :
    pass ∈ passes events ↔ .passed pass ∈ events := by
  rw [passes, List.mem_filterMap]
  constructor
  · rintro ⟨event, member, found⟩
    cases event with
    | emitted symbol => cases found
    | passed other =>
      cases found
      exact member
  · exact fun member => ⟨_, member, rfl⟩

theorem mem_passesOver (events : List ReadEvent) (file : FileId) (pass : FilePass) :
    pass ∈ passesOver events file ↔ .passed pass ∈ events ∧ pass.file = file := by
  rw [passesOver, List.mem_filter, mem_passes, decide_eq_true_iff]

namespace Reader

theorem finish_eq (state : PassState) (fatal : Option FatalError) :
    ∃ diagnostics, finish state fatal =
      { state.reader with
        openFiles := state.reader.openFiles.tail
        diagnostics
        documents := recordIn state.pass state.reader.documents } := by
  unfold finish
  dsimp only
  -- Whether conditionals were left open makes a difference for the diagnostics only.
  split
  · exact ⟨_, rfl⟩
  · exact ⟨_, rfl⟩

@[simp] theorem finish_openFiles (state : PassState) (fatal : Option FatalError) :
    (finish state fatal).openFiles = state.reader.openFiles.tail := by
  obtain ⟨_, finished⟩ := finish_eq state fatal
  rw [finished]

@[simp] theorem finish_documents (state : PassState) (fatal : Option FatalError) :
    (finish state fatal).documents = recordIn state.pass state.reader.documents := by
  obtain ⟨_, finished⟩ := finish_eq state fatal
  rw [finished]

theorem finish_diagnostics (state : PassState) (fatal : Option FatalError) :
    (finish state fatal).diagnostics =
      state.reader.diagnostics ++ (state.ending fatal).toList := by
  unfold finish
  dsimp only
  split
  next ending =>
    rw [ending]
    rfl
  next ending =>
    rw [ending]
    exact (List.append_nil _).symm

theorem finish_definitions (state : PassState) (fatal : Option FatalError) :
    (finish state fatal).definitions = state.reader.definitions := by
  obtain ⟨_, finished⟩ := finish_eq state fatal
  rw [finished]

theorem finish_files (state : PassState) (fatal : Option FatalError) :
    (finish state fatal).files = state.reader.files := by
  obtain ⟨_, finished⟩ := finish_eq state fatal
  rw [finished]

end Reader

/-! ### Numbers of files -/

/-- A file that is being read is not entered, and an entered one has another number. -/
theorem PassState.entry_file_ne (state : PassState) (system : FileSystem) (line : Nat)
    (raw : String) (entry : Entry) (enters : state.entryAt? system line raw = some entry)
    (file : FileId) (path : Path) (known : state.reader.files.path? file = some path)
    (reading : path ∈ state.reader.openFiles) :
    (entry.state.reader.files.number entry.target.normalize).1 ≠ file := by
  have keeps := PassState.Keeps.of_entry enters
  have ⟨normal, fresh⟩ := state.entry_target line raw entry enters
  have named := FileSet.path_number entry.state.reader.files entry.target.normalize
  rintro rfl
  rw [keeps.files, FileSet.path_of_number _ _ path _ (keeps.files ▸ known),
    Path.normalize_normalize, normal] at named
  exact fresh (Option.some.inj named ▸ reading)

/-! ### Symbols of passes -/

theorem PassState.Keeps.mem_symbols {state later : PassState} (keeps : Keeps state later)
    (symbol : Symbol) :
    symbol ∈ later.pass.symbols ↔
      .emitted symbol ∈ state.emittedUntil later ∨ symbol ∈ state.pass.symbols := by
  obtain ⟨added, extended, _⟩ := keeps.symbols
  rw [emittedUntil, extended, List.drop_left, List.mem_append, List.mem_map]
  constructor
  · rintro (old | new)
    · exact .inr old
    · exact .inl ⟨symbol, new, rfl⟩
  · rintro (⟨other, new, same⟩ | old)
    · cases same
      exact .inr new
    · exact .inl old

theorem PassState.Keeps.owned {state later : PassState} (keeps : Keeps state later)
    (own : ∀ symbol ∈ state.pass.symbols, symbol.file = state.pass.file) :
    ∀ symbol ∈ later.pass.symbols, symbol.file = later.pass.file := by
  intro symbol member
  obtain ⟨added, extended, owned⟩ := keeps.symbols
  rw [extended] at member
  rw [keeps.file]
  rcases List.mem_append.mp member with old | new
  · exact own symbol old
  · exact owned symbol new

namespace Runs

variable {system : FileSystem} {depth line : Nat} {state : PassState} {lines : List String}
  {events : List ReadEvent} {outcome : Step}

/-- A run closes every file that it opens and goes on in its own. -/
theorem stays (run : Runs system depth state line lines events outcome) :
    outcome.1.reader.openFiles = state.reader.openFiles ∧
      outcome.1.pass.path = state.pass.path ∧ outcome.1.pass.dialect = state.pass.dialect ∧
      outcome.1.pass.file = state.pass.file := by
  induction run with
  | done => exact ⟨rfl, rfl, rfl, rfl⟩
  | stop _ stopped =>
    have keeps := PassState.Keeps.of_step stopped
    exact ⟨keeps.openFiles, keeps.path, keeps.dialect, keeps.file⟩
  | advance _ stepped _ ih =>
    have keeps := PassState.Keeps.of_step stepped
    rw [← keeps.openFiles, ← keeps.path, ← keeps.dialect, ← keeps.file]
    exact ih
  | shut enters _ _ ih =>
    have keeps := PassState.Keeps.of_entry enters
    rw [← keeps.openFiles, ← keeps.path, ← keeps.dialect, ← keeps.file]
    exact ih
  | @enter _ state last line raw _ _ entry _ _ _ _ enters _ _ _ innerIH ih =>
    have keeps := PassState.Keeps.of_entry enters
    have inside : last.reader.openFiles = entry.target.normalize :: entry.state.reader.openFiles :=
      innerIH.1
    -- The pass over the entered file takes its own path off the open files.
    rw [Reader.finish_openFiles, inside] at ih
    rw [← keeps.openFiles, ← keeps.path, ← keeps.dialect, ← keeps.file]
    exact ih

/-- What was emitted is what the passes hold, ended or still going on. -/
theorem emitted_iff (run : Runs system depth state line lines events outcome) (symbol : Symbol) :
    .emitted symbol ∈ events ∨ symbol ∈ state.pass.symbols ↔
      symbol ∈ outcome.1.pass.symbols ∨ ∃ pass ∈ passes events, symbol ∈ pass.symbols := by
  -- The symbols of the running pass move from one side to the other with every line, and
  -- those of an included file do so when its pass ends.
  induction run with
  | done => simp [passes]
  | stop _ stopped =>
    have keeps := PassState.Keeps.of_step stopped
    rw [keeps.mem_symbols, passes_emittedUntil]
    simp
  | advance _ stepped _ ih =>
    have keeps := PassState.Keeps.of_step stepped
    rw [keeps.mem_symbols] at ih
    rw [passes_emittedUntil_append, ← ih, List.mem_append]
    grind
  | @shut _ state line raw _ entry events _ enters _ _ ih =>
    have keeps := PassState.Keeps.of_entry enters
    have ih : _ ∨ symbol ∈ entry.state.pass.symbols ↔ _ := ih
    rw [keeps.mem_symbols] at ih
    rw [passes_emittedUntil_append, ← ih, List.mem_append]
    grind
  | @enter _ state last line raw _ _ entry inner events fatal _ enters _ _ _ innerIH ih =>
    have keeps := PassState.Keeps.of_entry enters
    have inside : .emitted symbol ∈ inner ↔
        symbol ∈ last.pass.symbols ∨ ∃ pass ∈ passes inner, symbol ∈ pass.symbols := by
      -- The included pass begins without symbols.
      rw [← innerIH]
      exact ⟨.inl, fun either => either.resolve_right List.not_mem_nil⟩
    have ih : _ ∨ symbol ∈ entry.state.pass.symbols ↔ _ := ih
    rw [keeps.mem_symbols] at ih
    rw [passes_emittedUntil_append, passes_append, passes_passed]
    simp only [List.mem_append, List.mem_cons, or_and_right, exists_or, exists_eq_left,
      reduceCtorEq, false_or, inside]
    grind

/-- Passes hold symbols of their own file only. -/
theorem owned (run : Runs system depth state line lines events outcome)
    (own : ∀ symbol ∈ state.pass.symbols, symbol.file = state.pass.file) :
    (∀ symbol ∈ outcome.1.pass.symbols, symbol.file = outcome.1.pass.file) ∧
      ∀ pass ∈ passes events, ∀ symbol ∈ pass.symbols, symbol.file = pass.file := by
  induction run with
  | done => exact ⟨own, fun _ member => nomatch member⟩
  | stop _ stopped =>
    have keeps := PassState.Keeps.of_step stopped
    rw [passes_emittedUntil]
    exact ⟨keeps.owned own, fun _ member => nomatch member⟩
  | advance _ stepped _ ih =>
    have keeps := PassState.Keeps.of_step stepped
    rw [passes_emittedUntil_append]
    exact ih (keeps.owned own)
  | shut enters _ _ ih =>
    have keeps := PassState.Keeps.of_entry enters
    rw [passes_emittedUntil_append]
    exact ih (keeps.owned own)
  | enter enters _ _ _ innerIH ih =>
    have keeps := PassState.Keeps.of_entry enters
    have ⟨lastOwned, innerOwned⟩ := innerIH fun _ member => nomatch member
    have ⟨outer, later⟩ := ih (keeps.owned own)
    exact ⟨outer, forall_passes_enter innerOwned lastOwned later⟩

/-- Numbers that were given stay while files are read. -/
theorem path_known (run : Runs system depth state line lines events outcome) (file : FileId)
    (path : Path) (known : state.reader.files.path? file = some path) :
    outcome.1.reader.files.path? file = some path := by
  induction run with
  | done => exact known
  | stop _ stopped =>
    have keeps := PassState.Keeps.of_step stopped
    exact keeps.files ▸ known
  | advance _ stepped _ ih =>
    have keeps := PassState.Keeps.of_step stepped
    exact ih (keeps.files ▸ known)
  | shut enters _ _ ih =>
    have keeps := PassState.Keeps.of_entry enters
    exact ih (keeps.files ▸ known)
  | @enter _ state last line raw _ _ entry _ _ fatal _ enters _ _ _ innerIH ih =>
    have keeps := PassState.Keeps.of_entry enters
    have numbered := innerIH
      (FileSet.path_of_number _ entry.target.normalize path file (keeps.files ▸ known))
    exact ih ((Reader.finish_files last fatal).symm ▸ numbered)

/-- A file that is being read is not passed over once more. -/
theorem passes_file_ne (run : Runs system depth state line lines events outcome) (file : FileId)
    (path : Path) (known : state.reader.files.path? file = some path)
    (reading : path ∈ state.reader.openFiles) : ∀ pass ∈ passes events, pass.file ≠ file := by
  induction run with
  | done => exact fun _ member => nomatch member
  | stop =>
    rw [passes_emittedUntil]
    exact fun _ member => nomatch member
  | advance _ stepped _ ih =>
    have keeps := PassState.Keeps.of_step stepped
    rw [passes_emittedUntil_append]
    exact ih (keeps.files ▸ known) (keeps.openFiles ▸ reading)
  | shut enters _ _ ih =>
    have keeps := PassState.Keeps.of_entry enters
    rw [passes_emittedUntil_append]
    exact ih (keeps.files ▸ known) (keeps.openFiles ▸ reading)
  | @enter _ state last line raw _ _ entry _ _ fatal _ enters _ inside _ innerIH ih =>
    have keeps := PassState.Keeps.of_entry enters
    have another := state.entry_file_ne system line raw entry enters file path known reading
    rw [← keeps.files] at known
    rw [← keeps.openFiles] at reading
    have numbered := FileSet.path_of_number _ entry.target.normalize path file known
    have inner := innerIH numbered (.tail _ reading)
    have later := ih
      ((Reader.finish_files last fatal).symm ▸ inside.path_known file path numbered)
      (by
        rw [Reader.finish_openFiles, inside.stays.1]
        exact reading)
    have other : last.pass.file ≠ file := by
      rw [inside.stays.2.2.2]
      exact another
    exact forall_passes_enter inner other later

/-- The documents are the ended passes, recorded one after the other. -/
theorem documents (run : Runs system depth state line lines events outcome) :
    outcome.1.reader.documents =
      (passes events).foldl (fun documents pass => Reader.recordIn pass documents)
        state.reader.documents := by
  induction run with
  | done => rfl
  | stop _ stopped =>
    have keeps := PassState.Keeps.of_step stopped
    rw [keeps.documents, passes_emittedUntil]
    rfl
  | advance _ stepped _ ih =>
    have keeps := PassState.Keeps.of_step stepped
    rw [ih, keeps.documents, passes_emittedUntil_append]
  | shut enters _ _ ih =>
    have keeps := PassState.Keeps.of_entry enters
    rw [ih, passes_emittedUntil_append, ← keeps.documents]
    rfl
  | @enter _ state last line raw _ _ entry inner events fatal _ enters _ _ _ innerIH ih =>
    have keeps := PassState.Keeps.of_entry enters
    have inside : last.reader.documents = _ := innerIH
    rw [ih, Reader.finish_documents, inside, passes_emittedUntil_append, passes_append,
      passes_passed, List.foldl_append, List.foldl_cons, ← keeps.documents]
    rfl

end Runs

namespace Reader

variable (system : FileSystem) (depth : Nat) (path : Path) (inherited : Option Dialect)
  (place : SectionState) (reader : Reader)

/-- Reading a file emits the symbols that its passes hold. -/
theorem emitted_mem_journal_iff (symbol : Symbol) :
    .emitted symbol ∈ journal system depth path inherited place reader ↔
      ∃ pass ∈ passes (journal system depth path inherited place reader),
        symbol ∈ pass.symbols := by
  rcases readable_or_blocked system depth path.normalize with
    ⟨levels, text, rfl, readable⟩ | blocked
  · have emitted := (Runs.of_steps system levels 0 (.opening reader path.normalize inherited place)
      (Text.lines text)).emitted_iff symbol
    have fresh : symbol ∉ (PassState.opening reader path.normalize inherited place).pass.symbols :=
      List.not_mem_nil
    rw [journal_succ system levels path inherited place reader text readable]
    simp only [fresh, or_false] at emitted
    simp only [List.mem_append, List.mem_singleton, reduceCtorEq, or_false, emitted, passes_append,
      passes_passed, passes_nil, List.mem_singleton, or_and_right, exists_or, exists_eq_left]
    exact or_comm
  · rw [journal_unreadable system depth path inherited place reader blocked]
    simp [passes]

/-- What holds of all passes of a run over the lines of a file and of the pass that it leaves holds
of all passes that reading the file makes. -/
theorem forall_passes_journal {motive : FilePass → Prop}
    (runs : ∀ levels text events outcome, system.read path.normalize = .ok text →
      Runs system levels (.opening reader path.normalize inherited place) 0 (Text.lines text)
        events outcome →
      motive outcome.1.pass ∧ ∀ pass ∈ passes events, motive pass) :
    ∀ pass ∈ passes (journal system depth path inherited place reader), motive pass := by
  rcases readable_or_blocked system depth path.normalize with
    ⟨levels, text, rfl, readable⟩ | blocked
  · have run := Runs.of_steps system levels 0 (.opening reader path.normalize inherited place)
      (Text.lines text)
    have ⟨last, inner⟩ := runs levels text _ _ readable run
    rw [(run.readFile_eq readable).2, passes_append]
    exact List.forall_mem_append.mpr ⟨inner, List.forall_mem_singleton.mpr last⟩
  · rw [journal_unreadable system depth path inherited place reader blocked]
    exact fun _ absent => nomatch absent

theorem file_of_mem_passes (pass : FilePass) (symbol : Symbol)
    (member : pass ∈ passes (journal system depth path inherited place reader))
    (inside : symbol ∈ pass.symbols) : symbol.file = pass.file := by
  have owned : ∀ pass ∈ passes (journal system depth path inherited place reader),
      ∀ symbol ∈ pass.symbols, symbol.file = pass.file :=
    forall_passes_journal system depth path inherited place reader
      fun _ _ _ _ _ run => run.owned fun _ absent => nomatch absent
  exact owned pass member symbol inside

/-- The documents of a reader are the passes that it made, recorded one after the other. -/
theorem readFile_documents (file : FileId) (after : SectionState) (done : Reader)
    (returned : readFile system depth path inherited place reader = .ok (file, after, done)) :
    done.documents =
      (passes (journal system depth path inherited place reader)).foldl
        (fun documents pass => recordIn pass documents) reader.documents := by
  rcases readable_or_blocked system depth path.normalize with
    ⟨levels, text, rfl, readable⟩ | blocked
  · have recorded := (Runs.of_steps system levels 0
      (.opening reader path.normalize inherited place) (Text.lines text)).documents
    rw [readFile_succ system levels path inherited place reader text readable] at returned
    cases returned
    rw [finish_documents, recorded,
      journal_succ system levels path inherited place reader text readable, passes_append,
      List.foldl_append]
    rfl
  · obtain ⟨failure, failed⟩ := readFile_unreadable system depth path inherited place reader blocked
    rw [failed] at returned
    cases returned

end Reader

/-! ### Documents of passes -/

def addPass (document : Option Document) (pass : FilePass) : Option Document :=
  some (document.elim (Reader.document pass) (Reader.merge · pass))

/-- The document that passes over one file give. -/
def documentOf (passes : List FilePass) : Option Document :=
  passes.foldl addPass none

/-- The documents that passes over any files give. -/
def recorded (passes : List FilePass) : List Document :=
  passes.foldl (fun documents pass => Reader.recordIn pass documents) []

theorem find_recordIn (pass : FilePass) (documents : List Document) (file : FileId) :
    (Reader.recordIn pass documents).find? (·.file = file) =
      if pass.file = file then addPass (documents.find? (·.file = file)) pass
      else documents.find? (·.file = file) := by
  induction documents with
  | nil =>
    by_cases own : pass.file = file
    · simp [Reader.recordIn, Reader.document, addPass, own]
    · simp [Reader.recordIn, Reader.document, own]
  | cons first rest ih =>
    rw [Reader.recordIn]
    by_cases same : first.file = pass.file
    · rw [if_pos same]
      by_cases own : pass.file = file
      · simp [Reader.merge, addPass, same, own]
      · simp [Reader.merge, same, own]
    · -- The pass is recorded further back.
      rw [if_neg same, List.find?_cons, List.find?_cons, ih]
      by_cases found : first.file = file
      · have other : pass.file ≠ file := fun equal => same (found.trans equal.symm)
        simp [found, other]
      · simp [found]

theorem find_recorded (passes : List FilePass) (file : FileId) :
    (recorded passes).find? (·.file = file) = documentOf (passes.filter (·.file = file)) := by
  have folded (documents : List Document) :
      (passes.foldl (fun documents pass => Reader.recordIn pass documents) documents).find?
          (·.file = file) =
        (passes.filter (·.file = file)).foldl addPass (documents.find? (·.file = file)) := by
    induction passes generalizing documents with
    | nil => rfl
    | cons pass rest ih =>
      rw [List.foldl_cons, ih, find_recordIn]
      by_cases own : pass.file = file
      · simp [own]
      · simp [own]
  exact folded []

/-- Documents hold symbols of recorded passes only. -/
theorem mem_pass_of_recorded (passes : List FilePass) (document : Document)
    (member : document ∈ recorded passes) (symbol : Symbol) (inside : symbol ∈ document.symbols) :
    ∃ pass ∈ passes, symbol ∈ pass.symbols := by
  have inserted (pass : FilePass) (documents : List Document) (document : Document)
      (member : document ∈ Reader.recordIn pass documents) (inside : symbol ∈ document.symbols) :
      symbol ∈ pass.symbols ∨ ∃ document ∈ documents, symbol ∈ document.symbols := by
    induction documents with
    | nil =>
      rw [List.mem_singleton.mp member] at inside
      exact .inl inside
    | cons first rest ih =>
      rw [Reader.recordIn] at member
      split at member
      · rcases List.mem_cons.mp member with rfl | later
        · exact (List.mem_append.mp inside).symm.imp_right fun old => ⟨first, .head _, old⟩
        · exact .inr ⟨document, .tail _ later, inside⟩
      · rcases List.mem_cons.mp member with rfl | later
        · exact .inr ⟨document, .head _, inside⟩
        · exact (ih later).imp_right fun ⟨other, found, held⟩ => ⟨other, .tail _ found, held⟩
  -- Over the whole list: a symbol of a document is new, or it was there at the start.
  have folded (passes : List FilePass) (documents : List Document)
      (member : document ∈ passes.foldl (fun documents pass => Reader.recordIn pass documents)
        documents) :
      (∃ pass ∈ passes, symbol ∈ pass.symbols) ∨
        ∃ document ∈ documents, symbol ∈ document.symbols := by
    induction passes generalizing documents with
    | nil => exact .inr ⟨document, member, inside⟩
    | cons pass rest ih =>
      rcases ih _ member with ⟨other, found, held⟩ | ⟨other, found, held⟩
      · exact .inl ⟨other, .tail _ found, held⟩
      · exact (inserted pass documents other found held).imp_left fun here => ⟨pass, .head _, here⟩
  exact (folded passes [] member).resolve_right fun ⟨_, absent, _⟩ => nomatch absent

/-- Documents stand in the order in which the first passes over their files ended. -/
theorem files_recorded (passes : List FilePass) :
    (recorded passes).map (·.file) = Registry.addAllNew (· == ·) [] (passes.map (·.file)) := by
  have inserted (pass : FilePass) (documents : List Document) :
      (Reader.recordIn pass documents).map (·.file) =
        Registry.addNew (· == ·) (documents.map (·.file)) pass.file := by
    induction documents with
    | nil => rfl
    | cons first rest ih =>
      rw [Reader.recordIn]
      by_cases same : first.file = pass.file
      · simp [same, Reader.merge, Registry.addNew]
      · rw [if_neg same, List.map_cons, ih]
        simp only [Registry.addNew, List.map_cons, List.any_cons, beq_eq_false_iff_ne.mpr same,
          Bool.false_or]
        split <;> rfl
  have folded (documents : List Document) :
      (passes.foldl (fun documents pass => Reader.recordIn pass documents) documents).map
        (·.file) =
        (passes.map (·.file)).foldl (Registry.addNew (· == ·)) (documents.map (·.file)) := by
    induction passes generalizing documents with
    | nil => rfl
    | cons pass rest ih => rw [List.foldl_cons, ih, inserted, List.map_cons, List.foldl_cons]
  exact folded []

/-- No file has two documents. -/
theorem nodup_recorded (passes : List FilePass) : ((recorded passes).map (·.file)).Nodup := by
  rw [files_recorded]
  exact Registry.nodup_addAllNew [] _ List.nodup_nil

/-- A document holds the symbols of all its passes, and the lines dead in each of them. -/
theorem documentOf_eq_some (passes : List FilePass) (document : Document)
    (given : documentOf passes = some document) :
    document.symbols = passes.flatMap (·.symbols) ∧
      ∀ line, line ∈ document.inactiveLines ↔ ∀ pass ∈ passes, line ∈ pass.inactive := by
  -- Later passes add their symbols and strike lines that are not dead in them.
  have folded (more : List FilePass) (start document : Document)
      (given : more.foldl addPass (some start) = some document) :
      document.symbols = start.symbols ++ more.flatMap (·.symbols) ∧
        ∀ line, line ∈ document.inactiveLines ↔
          line ∈ start.inactiveLines ∧ ∀ pass ∈ more, line ∈ pass.inactive := by
    induction more generalizing start with
    | nil =>
      cases given
      simp
    | cons pass rest ih =>
      have ⟨symbols, dead⟩ := ih (Reader.merge start pass) given
      refine ⟨?_, fun line => ?_⟩
      · rw [symbols, Reader.merge, List.flatMap_cons, List.append_assoc]
      · rw [dead, Reader.merge, List.mem_filter, decide_eq_true_iff, List.forall_mem_cons,
          and_assoc]
  cases passes with
  | nil => cases given
  | cons first more =>
    have ⟨symbols, dead⟩ := folded more (Reader.document first) document given
    refine ⟨symbols, fun line => ?_⟩
    rw [dead, List.forall_mem_cons]
    rfl

theorem documentOf_eq_none (passes : List FilePass) : documentOf passes = none ↔ passes = [] := by
  have folded (more : List FilePass) (start : Document) :
      more.foldl addPass (some start) ≠ none := by
    induction more generalizing start with
    | nil => exact Option.some_ne_none start
    | cons pass rest ih => exact ih _
  cases passes with
  | nil => exact ⟨fun _ => rfl, fun _ => rfl⟩
  | cons first more =>
    exact ⟨fun none => absurd none (folded more _), fun empty => nomatch empty⟩

end FirmwareWorkspace
