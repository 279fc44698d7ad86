import FirmwareWorkspace.Proofs.Document.Balance
import FirmwareWorkspace.Proofs.Document.DeadCode
import FirmwareWorkspace.Proofs.Document.Order
import FirmwareWorkspace.Proofs.Document.Visits

/-!
# Merging the passes over a file

A file can be entered many times, by other files and under other macros, and each time makes a
pass. The pass is recorded when it ends, behind those of the files that it includes, so passes are
recorded in another order than files are entered. For a single file the two orders agree, since
no file is entered while it is being read: its document is what its passes give in the order in
which it was entered.

In one pass, a line with a symbol is live and a line that is marked is not. Documents keep the
symbols of all passes and the marks that all passes agree on, so this goes for documents as well.

Main result: `Reader.readAll_merges`.
-/
namespace FirmwareWorkspace

/-! ### The lines of symbols -/

/-- A symbol stands on a line: it has the code of the line, and covers it. -/
structure Symbol.StandsOn (symbol : Symbol) (line : Nat) (raw : String) : Prop where
  line : symbol.line = line
  detail : symbol.detail = Line.code raw
  start : symbol.startColumn = Line.indentation raw
  stop : symbol.endColumn = Line.indentation raw + Text.byteLength (Line.code raw)

namespace PassState

/-- At most one symbol was added, and it stands on one line. -/
def AddsAt (line : Nat) (raw : String) (state later : PassState) : Prop :=
  ∃ added, later.pass.symbols = state.pass.symbols ++ added ∧ added.length ≤ 1 ∧
    ∀ symbol ∈ added, symbol.StandsOn line raw

variable {state later : PassState} {line : Nat} {raw : String}

theorem AddsAt.of_same (same : later.pass.symbols = state.pass.symbols) :
    AddsAt line raw state later :=
  ⟨[], by rw [same, List.append_nil], Nat.zero_le 1, fun _ member => nomatch member⟩

theorem AddsAt.of_one (symbol : Symbol)
    (extended : later.pass.symbols = state.pass.symbols ++ [symbol])
    (here : symbol.StandsOn line raw) : AddsAt line raw state later :=
  ⟨[symbol], extended, Nat.le_refl 1, List.forall_mem_singleton.mpr here⟩

/-- What goes for the symbols so far and for those on the line goes for all. -/
theorem AddsAt.forall_symbols {motive : Symbol → Prop} (adds : AddsAt line raw state later)
    (old : ∀ symbol ∈ state.pass.symbols, motive symbol)
    (new : ∀ symbol, symbol.StandsOn line raw → motive symbol) :
    ∀ symbol ∈ later.pass.symbols, motive symbol := by
  obtain ⟨added, extended, _, stands⟩ := adds
  rw [extended]
  exact List.forall_mem_append.mpr ⟨old, fun symbol member => new symbol (stands symbol member)⟩

theorem AddsAt.report (adds : AddsAt line raw state later) (problem : Problem) :
    AddsAt line raw state (later.report line problem) := adds

theorem AddsAt.addInclude (adds : AddsAt line raw state later) (path : Path) :
    AddsAt line raw state (later.addInclude path) := adds

theorem addsAt_addSymbol (symbol : Symbol) (same : later.pass = state.pass)
    (here : symbol.StandsOn line raw) : AddsAt line raw state (later.addSymbol symbol) :=
  .of_one symbol (congrArg (fun pass : FilePass => pass.symbols ++ [symbol]) same) here

variable (state line) (system : FileSystem) (raw : String)

theorem reportUnknownSections_pass (qualifiers : List Qualifier) :
    (state.reportUnknownSections line qualifiers).pass = state.pass := by
  have reported (types : List String) (state : PassState) :
      (types.foldl (fun state type => state.report line (.unknownSection type)) state).pass =
        state.pass := by
    induction types generalizing state with
    | nil => rfl
    | cons type rest ih => exact ih _
  exact reported _ state

/-- What a path leads to has no bearing on where its symbol stands. -/
theorem declarePath_addsAt (symbol : Symbol) (what : String) (global : Bool)
    (here : symbol.StandsOn line raw) :
    AddsAt line raw state (state.declarePath system line symbol what global) :=
  addsAt_addSymbol _ (resolvePath_pass state system line what symbol.value global) { here with }

theorem declare_addsAt (text : String) (kind : LineKind) :
    AddsAt line raw state (state.declare system line raw text kind) := by
  have plain (kind : SymbolKind) (name value : String) :
      AddsAt line raw state (state.addSymbol (state.symbol kind line raw name value)) :=
    addsAt_addSymbol _ rfl ⟨rfl, rfl, rfl, rfl⟩
  have aimed (kind : SymbolKind) (path what : String) (global : Bool) :
      AddsAt line raw state
        (state.declarePath system line (state.symbol kind line raw path path) what global) :=
    state.declarePath_addsAt line system raw _ what global ⟨rfl, rfl, rfl, rfl⟩
  cases kind with
  | sectionHeader qualifiers =>
    exact addsAt_addSymbol _ (state.reportUnknownSections_pass line qualifiers)
      ⟨rfl, rfl, rfl, rfl⟩
  | subsection | blockOpen | blockClose | other => exact .of_same rfl
  | definition name value =>
    exact addsAt_addSymbol _ (define_pass state line name value) ⟨rfl, rfl, rfl, rfl⟩
  | libraryClass name path =>
    exact state.declarePath_addsAt line system raw _ _ _ ⟨rfl, rfl, rfl, rfl⟩
  | component path opensBlock =>
    exact addsAt_addSymbol _ (resolvePath_pass state system line "module" path true)
      ⟨rfl, rfl, rfl, rfl⟩
  | libraryClassDeclaration name header => exact addsAt_addSymbol _ rfl ⟨rfl, rfl, rfl, rfl⟩
  | source path => exact aimed _ _ _ _
  | package path => exact aimed _ _ _ _
  | includeDirectory path => exact aimed _ _ _ _
  | libraryClassUsage name => exact plain _ _ _
  | guidUsage kind name => exact plain _ _ _
  | pcdUsage space name => exact plain _ _ _
  | guidDeclaration kind name value => exact plain _ _ _

theorem declareLine_addsAt : AddsAt line raw state (state.declareLine system line raw) := by
  unfold declareLine
  dsimp only
  split
  · unfold assign
    dsimp only
    split
    · exact addsAt_addSymbol _ rfl ⟨rfl, rfl, rfl, rfl⟩
    · exact addsAt_addSymbol _ rfl ⟨rfl, rfl, rfl, rfl⟩
  · exact state.declare_addsAt line system raw _ _

/-! ### Symbols and dead code -/

theorem branchError_symbols (directive : String) (error : BranchError) :
    (state.branchError line directive error).1.pass.symbols = state.pass.symbols := by
  cases error with
  | underflow | afterElse => rfl

/-- Conditional directives emit nothing. -/
theorem follow_symbols_of_conditional (enter : Enter) (directive : Directive)
    (conditional : directive.isConditional = true) :
    (state.follow system enter line raw directive).1.pass.symbols = state.pass.symbols := by
  cases directive with
  | openIf condition =>
    have reported (result : Except Expression.EvalError Bool) :
        (state.reportSyntax line result).pass.symbols = state.pass.symbols :=
      congrArg FilePass.symbols (state.reportSyntax_pass line result)
    simp only [follow, openIf]
    split
    · split
      · exact reported _
      · exact reported _
    · rfl
  | openIfDefined expected arguments =>
    simp only [follow, openIfDefined]
    split <;> rfl
  | elseIf condition =>
    have reported (result : Except Expression.EvalError Bool) :
        (if state.pass.stack.evaluatesElseIf then state.reportSyntax line result
          else state).pass.symbols = state.pass.symbols := by
      split
      · exact congrArg FilePass.symbols (state.reportSyntax_pass line result)
      · rfl
    simp only [follow, elseIf]
    split
    · rw [branchError_symbols, reported]
    · exact reported _
    · exact reported _
  | elseBranch arguments =>
    have reported := congrArg FilePass.symbols (state.rejectArguments_pass line "else" arguments)
    simp only [follow, elseBranch]
    split
    · exact reported
    · rw [branchError_symbols, reported]
  | endIf arguments =>
    have reported := congrArg FilePass.symbols (state.rejectArguments_pass line "endif" arguments)
    simp only [follow, endIf]
    split
    · exact reported
    · exact reported
  | includeFile | fail | inert => cases conditional

theorem noteInclude_addsAt (target : String) :
    AddsAt line raw state (state.noteInclude system line raw target) :=
  .of_one _ (state.noteInclude_symbols system line raw target) ⟨rfl, rfl, rfl, rfl⟩

theorem includeFile_addsAt (target : String) :
    AddsAt line raw state (state.includeFile system .refuse line raw target) := by
  have noted := state.noteInclude_addsAt line system raw target
  rw [includeFile_eq]
  split
  next path _ =>
    unfold enterFile
    split
    · exact noted.report _
    · exact (noted.addInclude path).report _
  all_goals exact noted.report _

theorem markDead_symbols (wasActive : Bool) (outcome : Step) :
    (markDead wasActive line outcome).1.pass.symbols = outcome.1.pass.symbols := by
  unfold markDead
  split <;> rfl

/-- Dead lines emit nothing. -/
theorem step_symbols_of_dead (dead : state.pass.stack.isActive = false) :
    (state.step system .refuse line raw).1.pass.symbols = state.pass.symbols := by
  unfold step
  split
  · rfl
  · split
    next directive _ =>
      rw [directive_eq, markDead_symbols, followLive]
      split
      next followed =>
        rw [dead, Bool.false_or] at followed
        exact state.follow_symbols_of_conditional line system raw .refuse directive followed
      · rfl
    · rw [dead]
      rfl

/-- A line that enters no file adds symbols for itself only. -/
theorem step_addsAt : AddsAt line raw state (state.step system .refuse line raw).1 := by
  -- In live code a directive is followed whatever it is, and nothing is marked.
  cases active : state.pass.stack.isActive with
  | false => exact .of_same (state.step_symbols_of_dead line system raw active)
  | true =>
    unfold step
    split
    · exact .of_same rfl
    · split
      next directive _ =>
        have followed : AddsAt line raw state
            (state.followLive system .refuse line raw directive).1 := by
          rw [followLive, active, Bool.true_or, if_pos rfl]
          cases conditional : directive.isConditional with
          | true =>
            exact .of_same
              (state.follow_symbols_of_conditional line system raw .refuse directive conditional)
          | false =>
            cases directive with
            | includeFile target => exact state.includeFile_addsAt line system raw target
            | fail | inert => exact .of_same rfl
            | _ => cases conditional
        obtain ⟨added, extended, here⟩ := followed
        refine ⟨added, ?_, here⟩
        rw [directive_eq, markDead_symbols, extended]
      · exact state.declareLine_addsAt line system raw

end PassState

/-! ### Live and dead lines of a pass -/

/-- No line in front of `line` has a symbol and is marked as dead, and marks are ascending. -/
structure FilePass.IsSplitBefore (pass : FilePass) (line : Nat) : Prop where
  symbols : ∀ symbol ∈ pass.symbols, symbol.line < line
  inactive : ∀ number ∈ pass.inactive, number < line
  ascending : pass.inactive.Pairwise (· < ·)
  apart : ∀ symbol ∈ pass.symbols, symbol.line ∉ pass.inactive

/-- A pass that has split its lines up to some line. -/
def FilePass.IsSplit (pass : FilePass) : Prop :=
  ∃ line, pass.IsSplitBefore line

namespace FilePass.IsSplitBefore

theorem new (file : FileId) (path : Path) (dialect : Dialect) :
    (FilePass.new file path dialect).IsSplitBefore 0 where
  symbols _ member := nomatch member
  inactive _ member := nomatch member
  ascending := .nil
  apart _ member := nomatch member

variable {state later : PassState} {line : Nat}

/-- A live line. -/
theorem add (split : state.pass.IsSplitBefore line) (adds : PassState.AddsAt line raw state later)
    (unmarked : later.pass.inactive = state.pass.inactive) :
    later.pass.IsSplitBefore (line + 1) := by
  constructor
  · refine adds.forall_symbols
      (fun symbol member => Nat.lt_succ_of_lt (split.symbols symbol member)) fun symbol stands => ?_
    rw [stands.line]
    exact Nat.lt_succ_self line
  · intro number marked
    rw [unmarked] at marked
    exact Nat.lt_succ_of_lt (split.inactive number marked)
  · rw [unmarked]
    exact split.ascending
  · rw [unmarked]
    refine adds.forall_symbols split.apart fun symbol stands marked => ?_
    -- The line is not in front of itself.
    have before := split.inactive _ marked
    rw [stands.line] at before
    exact Nat.lt_irrefl line before

/-- A dead line. -/
theorem mark (split : state.pass.IsSplitBefore line)
    (same : later.pass.symbols = state.pass.symbols)
    (marks : later.pass.inactive = state.pass.inactive ++ [line]) :
    later.pass.IsSplitBefore (line + 1) := by
  constructor
  · intro symbol member
    rw [same] at member
    exact Nat.lt_succ_of_lt (split.symbols symbol member)
  · intro number marked
    rw [marks] at marked
    rcases List.mem_append.mp marked with old | new
    · exact Nat.lt_succ_of_lt (split.inactive number old)
    · rw [List.mem_singleton.mp new]
      exact Nat.lt_succ_self line
  · rw [marks, List.pairwise_append]
    refine ⟨split.ascending, List.pairwise_singleton _ _, fun number old other new => ?_⟩
    rw [List.mem_singleton.mp new]
    exact split.inactive number old
  · intro symbol member marked
    rw [same] at member
    rw [marks] at marked
    rcases List.mem_append.mp marked with old | new
    · exact split.apart symbol member old
    · have before := split.symbols symbol member
      -- All symbols are on lines in front of this one.
      rw [List.mem_singleton.mp new] at before
      exact Nat.lt_irrefl line before

theorem step (split : state.pass.IsSplitBefore line) (system : FileSystem) (raw : String) :
    (state.step system .refuse line raw).1.pass.IsSplitBefore (line + 1) := by
  rcases state.step_inactive system .refuse line raw with unmarked | ⟨dead, marked⟩
  · exact split.add (state.step_addsAt line system raw) unmarked
  · exact split.mark (state.step_symbols_of_dead line system raw dead) marked

/-- A line up to the moment when it enters a file. -/
theorem entry (split : state.pass.IsSplitBefore line) (system : FileSystem) (raw : String)
    (entry : Entry) (enters : state.entryAt? system line raw = some entry) :
    entry.state.pass.IsSplitBefore (line + 1) := by
  have unmarked := (state.survivesFollowing_inactive).entry enters rfl
  obtain ⟨target, path, _, _, rfl⟩ := (state.entry_eq_some_iff system line raw entry).mp enters
  exact split.add ((state.noteInclude_addsAt line system raw target).addInclude path) unmarked

end FilePass.IsSplitBefore

/-- Every pass of a run splits its lines. -/
theorem Runs.isSplit {system : FileSystem} {depth line : Nat} {state : PassState}
    {lines : List String} {events : List ReadEvent} {outcome : Step}
    (run : Runs system depth state line lines events outcome)
    (split : state.pass.IsSplitBefore line) :
    outcome.1.pass.IsSplit ∧ ∀ pass ∈ passes events, pass.IsSplit := by
  induction run with
  | done => exact ⟨⟨_, split⟩, fun _ member => nomatch member⟩
  | @stop _ state _ line raw _ _ _ stopped =>
    have stepped := split.step system raw
    rw [stopped] at stepped
    rw [passes_emittedUntil]
    exact ⟨⟨_, stepped⟩, fun _ member => nomatch member⟩
  | @advance _ state _ line raw _ _ _ _ moved _ ih =>
    have stepped := split.step system raw
    rw [moved] at stepped
    rw [passes_emittedUntil_append]
    exact ih stepped
  | @shut _ state line raw _ entry _ _ enters _ _ ih =>
    rw [passes_emittedUntil_append]
    exact ih (split.entry system raw entry enters)
  | @enter _ state last line raw _ _ entry _ _ fatal _ enters _ _ _ innerIH ih =>
    -- The included pass starts without lines, and the including one goes on behind its include.
    have ⟨ended, inner⟩ := innerIH (.new _ _ _)
    have ⟨reached, after⟩ := ih (split.entry system raw entry enters)
    exact ⟨reached, forall_passes_enter inner ended after⟩

/-! ### Passes in the order of entering -/

/-- The passes over files that are entered by taking in lines; `inside` gives those for an entered
file. -/
def PassState.entered (state : PassState) (system : FileSystem) (enter : Enter)
    (inside : Path → Option Dialect → SectionState → Reader → List FilePass) (line : Nat) :
    List String → List FilePass
  | [] => []
  | raw :: rest =>
    let here := match state.entryAt? system line raw with
      | none => []
      | some entry =>
        inside entry.target (some entry.state.pass.dialect) entry.state.place entry.state.reader
    match state.step system enter line raw with
    | (next, none) => here ++ next.entered system enter inside (line + 1) rest
    | (_, some _) => here

/-- The passes that reading a file makes, in the order in which their files are entered. -/
def Reader.entered (system : FileSystem) :
    Nat → Path → Option Dialect → SectionState → Reader → List FilePass
  | 0, _, _, _, _ => []
  | depth + 1, path, inherited, place, reader =>
    match system.read path.normalize with
    | .error _ => []
    | .ok text =>
      let start := PassState.opening reader path.normalize inherited place
      -- The file is entered before those that it includes, and its pass ends after theirs.
      (start.steps system (.upTo system depth) 0 (Text.lines text)).1.pass ::
        start.entered system (.upTo system depth) (entered system depth) 0 (Text.lines text)

theorem Reader.entered_unreadable (system : FileSystem) (depth : Nat) (path : Path)
    (inherited : Option Dialect) (place : SectionState) (reader : Reader)
    (blocked : depth = 0 ∨ ∃ failure, system.read path.normalize = .error failure) :
    entered system depth path inherited place reader = [] := by
  cases depth with
  | zero => rfl
  | succ depth =>
    obtain ⟨failure, unreadable⟩ := blocked.resolve_left (Nat.succ_ne_zero depth)
    simp only [entered, unreadable]

theorem Reader.entered_succ (system : FileSystem) (depth : Nat) (path : Path)
    (inherited : Option Dialect) (place : SectionState) (reader : Reader) (text : String)
    (readable : system.read path.normalize = .ok text) :
    entered system (depth + 1) path inherited place reader =
      let start := PassState.opening reader path.normalize inherited place
      (start.steps system (.upTo system depth) 0 (Text.lines text)).1.pass ::
        start.entered system (.upTo system depth) (entered system depth) 0 (Text.lines text) := by
  simp only [entered, readable]

/-- A pass may come first or last among passes over other files. -/
theorem filter_cons_eq (pass : FilePass) (entered ended : List FilePass) (file : FileId)
    (others : ∀ other ∈ ended, other.file ≠ pass.file)
    (same : entered.filter (·.file = file) = ended.filter (·.file = file)) :
    (pass :: entered).filter (·.file = file) = (ended ++ [pass]).filter (·.file = file) := by
  rw [List.filter_cons, List.filter_append, same]
  by_cases own : pass.file = file
  · have none : ended.filter (·.file = file) = [] := by
      apply List.filter_eq_nil_iff.mpr
      intro other member
      rw [decide_eq_true_iff, ← own]
      exact others other member
    simp [own, none]
  · simp [own]

/-- The file that a run goes over is not entered meanwhile. -/
theorem Runs.passes_ne_opening {system : FileSystem} {depth line : Nat} {reader : Reader}
    {path : Path} {inherited : Option Dialect} {place : SectionState} {lines : List String}
    {events : List ReadEvent} {outcome : Step}
    (run : Runs system depth (.opening reader path.normalize inherited place) line lines events
      outcome) :
    ∀ pass ∈ passes events, pass.file ≠ outcome.1.pass.file := by
  have isOpen := PassState.isOpen_opening reader path inherited place
  rw [run.stays.2.2.2]
  exact run.passes_file_ne _ _ isOpen.known isOpen.reading

/-- For a single file, passes end in the order in which the file is entered. -/
theorem Runs.filter_entered {system : FileSystem} {depth line : Nat} {state : PassState}
    {lines : List String} {events : List ReadEvent} {outcome : Step}
    (run : Runs system depth state line lines events outcome) (file : FileId) :
    (state.entered system (.upTo system depth) (Reader.entered system depth) line lines).filter
        (·.file = file) = passesOver events file := by
  unfold passesOver
  induction run with
  | done => rfl
  | stop stays stopped =>
    simp only [PassState.entered, stays, PassState.step_of_no_entry _ system _ _ _ stays, stopped,
      passes_emittedUntil]
  | advance stays moved _ ih =>
    simp only [PassState.entered, stays, PassState.step_of_no_entry _ system _ _ _ stays, moved,
      List.nil_append, passes_emittedUntil_append]
    exact ih
  | @shut depth state line raw rest entry _ _ enters blocked _ ih =>
    obtain ⟨failure, failed⟩ := Reader.readFile_unreadable system depth entry.target
      (some entry.state.pass.dialect) entry.state.place entry.state.reader blocked
    have read : entry.enteredBy (.upTo system depth) = .error failure := failed
    simp only [PassState.entered, enters, PassState.step_of_entry _ system _ _ _ _ enters, read,
      Entry.resume, Reader.entered_unreadable system depth entry.target _ _ _ blocked,
      List.nil_append, passes_emittedUntil_append]
    exact ih
  | @enter depth state last line raw text rest entry inner events fatal _ enters readable inside _
      innerIH ih =>
    have read : entry.enteredBy (.upTo system (depth + 1)) = _ :=
      Reader.readFile_succ system depth entry.target _ _ _ text readable
    have reached := inside.eq_steps.2
    have first := filter_cons_eq last.pass _ (passes inner) file inside.passes_ne_opening innerIH
    simp only [PassState.entered, enters, PassState.step_of_entry _ system _ _ _ _ enters, read,
      Entry.resume, Reader.entered_succ system depth entry.target _ _ _ text readable, ← reached,
      passes_emittedUntil_append]
    rw [List.filter_append, first, ih, ← List.filter_append, List.append_assoc, passes_append,
      passes_passed, List.singleton_append]

namespace Reader

variable (system : FileSystem) (depth : Nat) (path : Path) (inherited : Option Dialect)
  (place : SectionState) (reader : Reader)

theorem filter_entered (file : FileId) :
    (entered system depth path inherited place reader).filter (·.file = file) =
      passesOver (journal system depth path inherited place reader) file := by
  rcases readable_or_blocked system depth path.normalize with
    ⟨levels, text, rfl, readable⟩ | blocked
  · have run := Runs.of_steps system levels 0 (.opening reader path.normalize inherited place)
      (Text.lines text)
    rw [passesOver, (run.readFile_eq readable).2, passes_append, passes_passed, passes_nil]
    rw [entered_succ system levels path inherited place reader text readable]
    exact filter_cons_eq _ _ _ file run.passes_ne_opening (run.filter_entered file)
  · rw [entered_unreadable system depth path inherited place reader blocked, passesOver,
      journal_unreadable system depth path inherited place reader blocked]
    rfl

theorem isSplit_of_mem_passes (pass : FilePass)
    (member : pass ∈ passes (journal system depth path inherited place reader)) :
    pass.IsSplit :=
  forall_passes_journal system depth path inherited place reader
    (fun _ _ _ _ _ run => run.isSplit (.new _ _ _)) pass member

/-! ### Several files -/

theorem readOrSkip_documents :
    (reader.readOrSkip system path).documents =
      (passes (journal system (system.fileCount + 1) path none .initial reader)).foldl
        (fun documents pass => recordIn pass documents) reader.documents := by
  unfold readOrSkip Reader.read
  cases returned : readFile system (system.fileCount + 1) path none .initial reader with
  | ok result =>
    obtain ⟨file, after, done⟩ := result
    exact readFile_documents system _ path none .initial reader file after done returned
  | error failure =>
    rcases readable_or_blocked system (system.fileCount + 1) path.normalize with
      ⟨levels, text, deep, readable⟩ | blocked
    · rw [deep, readFile_succ system levels path none .initial reader text readable] at returned
      cases returned
    · rw [journal_unreadable system _ path none .initial reader blocked]
      rfl

/-- The passes that reading files one after the other makes, in the order of entering. -/
def enteredOfAll (reader : Reader) (system : FileSystem) : List Path → List FilePass
  | [] => []
  | path :: rest =>
    entered system (system.fileCount + 1) path none .initial reader ++
      (reader.readOrSkip system path).enteredOfAll system rest

/-- What is recorded are the passes that were entered, and each file has them in that order. -/
theorem readAll_records (paths : List Path) :
    ∃ ended : List FilePass,
      (reader.readAll system paths).documents =
        ended.foldl (fun documents pass => recordIn pass documents) reader.documents ∧
      (∀ file, (reader.enteredOfAll system paths).filter (·.file = file) =
        ended.filter (·.file = file)) ∧
      ∀ pass ∈ ended, pass.IsSplit := by
  induction paths generalizing reader with
  | nil => exact ⟨[], rfl, fun _ => rfl, fun _ member => nomatch member⟩
  | cons path rest ih =>
    obtain ⟨later, recorded, agree, split⟩ := ih (reader.readOrSkip system path)
    refine ⟨passes (journal system (system.fileCount + 1) path none .initial reader) ++ later,
      ?_, fun file => ?_, fun pass member => ?_⟩
    · rw [List.foldl_append, ← readOrSkip_documents]
      exact recorded
    · rw [enteredOfAll, List.filter_append, List.filter_append, agree, filter_entered]
      rfl
    · rcases List.mem_append.mp member with first | behind
      · exact isSplit_of_mem_passes system _ path none .initial reader pass first
      · exact split pass behind

end Reader

/-! ### Documents -/

theorem documentOf_passes (passes : List FilePass) (document : Document)
    (given : documentOf passes = some document) :
    document.passes = passes.length ∧
      ∃ first ∈ passes, document.inactiveLines.Sublist first.inactive := by
  -- The first pass makes the document, and each later one counts and strikes lines out.
  have folded (more : List FilePass) (start document : Document)
      (given : more.foldl addPass (some start) = some document) :
      document.passes = start.passes + more.length ∧
        document.inactiveLines.Sublist start.inactiveLines := by
    induction more generalizing start with
    | nil =>
      cases given
      exact ⟨rfl, .refl _⟩
    | cons pass rest ih =>
      have ⟨counted, struck⟩ := ih (Reader.merge start pass) given
      refine ⟨?_, struck.trans List.filter_sublist⟩
      have merged : (Reader.merge start pass).passes = start.passes + 1 := rfl
      rw [counted, merged, List.length_cons]
      omega
  cases passes with
  | nil => cases given
  | cons first more =>
    have ⟨counted, struck⟩ := folded more (Reader.document first) document given
    have single : (Reader.document first).passes = 1 := rfl
    refine ⟨?_, first, .head _, struck⟩
    rw [counted, single, List.length_cons]
    omega

/-- A document tells of the passes over its file, in the order in which the file was entered. -/
structure Document.Merges (document : Document) (passes : List FilePass) : Prop where
  entered : passes ≠ []
  counted : document.passes = passes.length
  symbols : document.symbols = passes.flatMap (·.symbols)
  inactive : ∀ line, line ∈ document.inactiveLines ↔ ∀ pass ∈ passes, line ∈ pass.inactive
  ascending : document.inactiveLines.Pairwise (· < ·)

theorem Document.Merges.of_documentOf (passes : List FilePass) (document : Document)
    (given : documentOf passes = some document) (split : ∀ pass ∈ passes, pass.IsSplit) :
    document.Merges passes := by
  have ⟨counted, first, member, struck⟩ := documentOf_passes passes document given
  have ⟨symbols, dead⟩ := documentOf_eq_some passes document given
  obtain ⟨line, before⟩ := split first member
  exact ⟨List.ne_nil_of_mem member, counted, symbols, dead, before.ascending.sublist struck⟩

/-- A symbol was emitted by one of the passes, and that pass did not mark its line. -/
theorem Document.Merges.apart {document : Document} {passes : List FilePass}
    (merges : document.Merges passes) (split : ∀ pass ∈ passes, pass.IsSplit) (symbol : Symbol)
    (member : symbol ∈ document.symbols) : symbol.line ∉ document.inactiveLines := by
  rw [merges.symbols] at member
  obtain ⟨pass, made, emitted⟩ := List.mem_flatMap.mp member
  obtain ⟨line, before⟩ := split pass made
  intro marked
  exact before.apart symbol emitted ((merges.inactive symbol.line).mp marked pass made)

/-- After files were read one after the other, each document merges the passes over its file in the
order in which the file was entered, none of its symbols stands on one of its dead lines, and every
file that was entered has a document. -/
theorem Reader.readAll_merges (system : FileSystem) (context : Context) (files : FileSet)
    (paths : List Path) :
    let start := Reader.new context files
    let done := start.readAll system paths
    let entered := start.enteredOfAll system paths
    (∀ document ∈ done.documents,
      document.Merges (entered.filter (·.file = document.file)) ∧
        ∀ symbol ∈ document.symbols, symbol.line ∉ document.inactiveLines) ∧
    ∀ pass ∈ entered, ∃ document ∈ done.documents, document.file = pass.file := by
  intro start done entered
  obtain ⟨ended, documents, agree, split⟩ := start.readAll_records system paths
  have held : done.documents = recorded ended := documents
  constructor
  · intro document member
    rw [held] at member
    -- The document depends on the passes over its file only, which are the same in both orders.
    have found := Registry.find_of_mem Document.file _ (nodup_recorded ended) document member
    rw [find_recorded, ← agree document.file] at found
    have own : ∀ pass ∈ entered.filter (·.file = document.file), pass.IsSplit := by
      intro pass made
      rw [agree document.file] at made
      exact split pass (List.mem_filter.mp made).1
    have merges := Document.Merges.of_documentOf _ document found own
    exact ⟨merges, merges.apart own⟩
  · intro pass made
    have recordedToo : pass ∈ ended.filter (·.file = pass.file) := by
      rw [← agree pass.file]
      exact List.mem_filter.mpr ⟨made, decide_eq_true rfl⟩
    have found := find_recorded ended pass.file
    cases given : documentOf (ended.filter (·.file = pass.file)) with
    | none => exact absurd ((documentOf_eq_none _).mp given) (List.ne_nil_of_mem recordedToo)
    | some document =>
      rw [given] at found
      have same := List.find?_some found
      exact ⟨document, held ▸ List.mem_of_find?_eq_some found, of_decide_eq_true same⟩

-- The branches of the included file are dead in one pass each, and its last line in both.
example :
    let files : MemoryFiles := .ofList [
      (⟨"/ws/P.dsc"⟩, "!include X.inc\nDEFINE A = 1\n!include X.inc\n"),
      (⟨"/ws/X.inc"⟩,
        "!ifdef A\nDEFINE B = 1\n!else\nDEFINE C = 1\n!endif\n!if FALSE\nDEFINE D = 1\n")]
    let done := (Reader.new (.new (.new 8) (.new ⟨"/ws"⟩ [])) .empty).readAll (.memory files)
      [⟨"/ws/P.dsc"⟩]
    (done.documents.find? (·.path = ⟨"/ws/X.inc"⟩)).map
        (fun document => (document.passes, document.symbols.map (·.name), document.inactiveLines)) =
      some (2, ["C", "B"], [6]) := by
  decide +kernel

end FirmwareWorkspace
