import FirmwareWorkspace.Proofs.Document.Bindings
import FirmwareWorkspace.Proofs.Document.Merging

/-!
# Definitions in the journal

A live line that defines a macro binds it in the table and emits a symbol. So the definitions
among the symbols of a journal are those that were made while files were read, in the same order,
although the macro table is kept by the reader and the symbols are kept by each pass.

Main result: `Reader.macroLines_journal`.
-/
namespace FirmwareWorkspace

/-- What a symbol says about the macro that it defines. -/
def Symbol.macroLine (symbol : Symbol) : MacroLine :=
  ⟨symbol.name, DefinitionTable.stored symbol.value, ⟨symbol.file, symbol.line⟩⟩

/-- The definition that a symbol records. -/
def Symbol.macroLine? (symbol : Symbol) : Option MacroLine :=
  if symbol.kind = .definition then some symbol.macroLine else none

/-- The definitions among symbols, in their order. -/
def macroLines (symbols : List Symbol) : List MacroLine :=
  symbols.filterMap Symbol.macroLine?

@[simp] theorem macroLines_append (front back : List Symbol) :
    macroLines (front ++ back) = macroLines front ++ macroLines back :=
  List.filterMap_append ..

theorem macroLines_singleton (symbol : Symbol) :
    macroLines [symbol] = symbol.macroLine?.toList := by
  simp only [macroLines, List.filterMap_cons, List.filterMap_nil]
  cases symbol.macroLine? <;> rfl

theorem Symbol.macroLine_of_other {symbol : Symbol} (other : symbol.kind ≠ .definition) :
    symbol.macroLine? = none :=
  if_neg other

namespace PassState

variable (state : PassState) (system : FileSystem) (line : Nat) (raw : String)

/-! ### Symbols of single lines -/

/-- A symbol that records no definition. -/
theorem macroLines_addSymbol {later : PassState} (symbol : Symbol) (same : later.pass = state.pass)
    (other : symbol.kind ≠ .definition) :
    macroLines (later.addSymbol symbol).pass.symbols = macroLines state.pass.symbols := by
  have extended : (later.addSymbol symbol).pass.symbols = state.pass.symbols ++ [symbol] :=
    congrArg (fun pass : FilePass => pass.symbols ++ [symbol]) same
  rw [extended, macroLines_append, macroLines_singleton, Symbol.macroLine_of_other other]
  exact List.append_nil _

theorem macroLines_declarePath (symbol : Symbol) (what : String) (global : Bool)
    (other : symbol.kind ≠ .definition) :
    macroLines (state.declarePath system line symbol what global).pass.symbols =
      macroLines state.pass.symbols :=
  state.macroLines_addSymbol _ (resolvePath_pass state system line what symbol.value global) other

theorem macroLines_define (name value : String) :
    macroLines ((state.define line name value).addSymbol
        (state.symbol .definition line raw name value)).pass.symbols =
      macroLines state.pass.symbols ++
        [⟨name, DefinitionTable.stored value, ⟨state.pass.file, line⟩⟩] := by
  have extended : ((state.define line name value).addSymbol
      (state.symbol .definition line raw name value)).pass.symbols =
        state.pass.symbols ++ [state.symbol .definition line raw name value] :=
    congrArg (fun pass : FilePass => pass.symbols ++ _) (define_pass state line name value)
  rw [extended, macroLines_append, macroLines_singleton]
  rfl

theorem macroLines_declare_of_unbound (text : String) (kind : LineKind)
    (unbound : ∀ name value, kind ≠ .definition name value) :
    macroLines (state.declare system line raw text kind).pass.symbols =
      macroLines state.pass.symbols := by
  have plain (kind : SymbolKind) (name value : String) (other : kind ≠ .definition) :
      macroLines (state.addSymbol (state.symbol kind line raw name value)).pass.symbols =
        macroLines state.pass.symbols := state.macroLines_addSymbol _ rfl other
  have aimed (kind : SymbolKind) (path what : String) (global : Bool)
      (other : kind ≠ .definition) :
      macroLines (state.declarePath system line (state.symbol kind line raw path path) what
        global).pass.symbols = macroLines state.pass.symbols :=
    state.macroLines_declarePath system line _ what global other
  -- All other kinds of lines record a symbol of their own kind or none.
  cases kind with
  | definition name value => exact absurd rfl (unbound name value)
  | sectionHeader qualifiers =>
    exact state.macroLines_addSymbol _ (state.reportUnknownSections_pass line qualifiers) nofun
  | subsection | blockOpen | blockClose | other => rfl
  | libraryClass name path => exact state.macroLines_declarePath system line _ _ _ nofun
  | component path opensBlock =>
    exact state.macroLines_addSymbol _ (resolvePath_pass state system line "module" path true) nofun
  | libraryClassDeclaration name header => exact state.macroLines_addSymbol _ rfl nofun
  | source path => exact aimed _ _ _ _ nofun
  | package path => exact aimed _ _ _ _ nofun
  | includeDirectory path => exact aimed _ _ _ _ nofun
  | libraryClassUsage name => exact plain _ _ _ nofun
  | pcdUsage space name => exact plain _ _ _ nofun
  | guidUsage kind name => exact plain _ _ _ (by cases kind <;> nofun)
  | guidDeclaration kind name value => exact plain _ _ _ (by cases kind <;> nofun)

theorem macroLines_assign (assignment : Line.PcdAssignment) :
    macroLines (state.assign line raw assignment).pass.symbols =
      macroLines state.pass.symbols := by
  unfold assign
  dsimp only
  split
  · exact state.macroLines_addSymbol _ rfl nofun
  · exact state.macroLines_addSymbol _ rfl nofun

theorem macroLines_noteInclude (target : String) :
    macroLines (state.noteInclude system line raw target).pass.symbols =
      macroLines state.pass.symbols := by
  have inclusion : (state.inclusion system line raw target).macroLine? = none :=
    Symbol.macroLine_of_other nofun
  rw [noteInclude_symbols, macroLines_append, macroLines_singleton, inclusion]
  exact List.append_nil _

theorem macroLines_includeFile (target : String) :
    macroLines (state.includeFile system .refuse line raw target).pass.symbols =
      macroLines state.pass.symbols := by
  have noted := state.macroLines_noteInclude system line raw target
  rw [includeFile_eq]
  split
  · unfold enterFile
    split
    · exact noted
    · exact noted
  all_goals exact noted

/-- A directive records no definition. -/
theorem macroLines_directive (directive : Directive) :
    macroLines (state.directive system .refuse line raw directive).1.pass.symbols =
      macroLines state.pass.symbols := by
  rw [directive_eq, markDead_symbols, followLive]
  split
  · cases conditional : directive.isConditional with
    | true => rw [state.follow_symbols_of_conditional line system raw .refuse directive conditional]
    | false =>
      cases directive with
      | includeFile target => exact state.macroLines_includeFile system line raw target
      | fail | inert => rfl
      | _ => cases conditional
  · rfl

/-- A line that declares nothing is empty, a directive or dead. -/
theorem macroLines_step_of_silent (silent : ¬ state.declares raw = true) :
    macroLines (state.step system .refuse line raw).1.pass.symbols =
      macroLines state.pass.symbols := by
  unfold step
  split
  · rfl
  next coded =>
    split
    · exact state.macroLines_directive system line raw _
    next plain =>
      split
      next live =>
        refine absurd ?_ silent
        simp only [declares, plain, live, Option.isNone_none, Bool.and_true, decide_eq_true coded]
      · rfl

/-- A line that enters no file records the definition that it makes, if it makes one. -/
theorem macroLines_step :
    macroLines (state.step system .refuse line raw).1.pass.symbols =
      macroLines state.pass.symbols ++ (LineVisit.macroLine? ⟨state, line, raw⟩).toList := by
  by_cases defines : ∃ name value, state.kindAt? raw = some (.definition name value)
  · obtain ⟨name, value, classified⟩ := defines
    rw [state.step_of_kind system .refuse line raw _ classified, LineVisit.macroLine?, classified]
    exact state.macroLines_define line raw name value
  · have unbound : ∀ name value, state.kindAt? raw ≠ some (.definition name value) :=
      fun name value classified => defines ⟨name, value, classified⟩
    rw [LineVisit.macroLine_of_unbound ⟨state, line, raw⟩ unbound, Option.toList_none,
      List.append_nil]
    -- Any other line emits symbols of other kinds, or none.
    cases assigns : state.assignmentAt? raw with
    | some assignment =>
      rw [state.step_of_assignment system .refuse line raw assignment assigns]
      exact state.macroLines_assign line raw assignment
    | none =>
      cases classified : state.kindAt? raw with
      | some kind =>
        rw [state.step_of_kind system .refuse line raw kind classified]
        exact state.macroLines_declare_of_unbound system line raw _ kind fun name value same =>
          unbound name value (same ▸ classified)
      | none =>
        exact state.macroLines_step_of_silent system line raw fun declares => by
          obtain ⟨kind, known, _⟩ := state.kind_of_declares raw declares assigns
          cases classified.symm.trans known

theorem macroLines_entry (entry : Entry) (enters : state.entryAt? system line raw = some entry) :
    macroLines entry.state.pass.symbols = macroLines state.pass.symbols := by
  obtain ⟨target, path, _, _, rfl⟩ := (entry_eq_some_iff _ _ _ _ _).mp enters
  exact state.macroLines_noteInclude system line raw target

end PassState

/-! ### Whole files -/

theorem macroLines_emittedUntil {state later : PassState} (keeps : state.Keeps later) :
    macroLines state.pass.symbols ++ macroLines (symbolsOf (state.emittedUntil later)) =
      macroLines later.pass.symbols := by
  rw [← macroLines_append, keeps.symbols_eq]

/-- What a line defines is what it emits in its own file. -/
theorem macroLines_emitted {state later : PassState} {defined : Option MacroLine}
    (keeps : state.Keeps later)
    (added : macroLines later.pass.symbols = macroLines state.pass.symbols ++ defined.toList) :
    macroLines (symbolsOf (state.emittedUntil later)) = defined.toList :=
  List.append_cancel_left ((macroLines_emittedUntil keeps).trans added)

/-- A line that enters a file is a directive, and it records no definition. -/
theorem macroLines_entered {system : FileSystem} {state : PassState} {line : Nat} {raw : String}
    {entry : Entry} (enters : state.entryAt? system line raw = some entry) :
    macroLines (symbolsOf (state.emittedUntil entry.state)) =
      (LineVisit.macroLine? ⟨state, line, raw⟩).toList := by
  have silent : LineVisit.macroLine? ⟨state, line, raw⟩ = none :=
    LineVisit.macroLine_of_unbound ⟨state, line, raw⟩ fun name value => by
      rw [state.kind_of_entry system line raw entry enters]
      nofun
  apply macroLines_emitted (PassState.Keeps.of_entry enters)
  rw [silent, state.macroLines_entry system line raw entry enters]
  exact (List.append_nil _).symm

theorem LineVisit.filterMap_macroLine_cons (first : LineVisit) (rest : List LineVisit) :
    (first :: rest).filterMap LineVisit.macroLine? =
      first.macroLine?.toList ++ rest.filterMap LineVisit.macroLine? := by
  rw [List.filterMap_cons]
  cases first.macroLine? <;> rfl

open LineVisit (filterMap_macroLine_cons) in
/-- A run records the definitions of the lines that it reaches. -/
theorem Runs.macroLines_eq {system : FileSystem} {depth line : Nat} {state : PassState}
    {lines : List String} {events : List ReadEvent} {outcome : Step}
    (run : Runs system depth state line lines events outcome) :
    macroLines (symbolsOf events) =
      (state.visits system (.upTo system depth) (Reader.visits system depth) line lines).filterMap
        LineVisit.macroLine? := by
  induction run with
  | done => rfl
  | @stop _ state _ line raw _ _ stays stopped =>
    have keeps := PassState.Keeps.of_step stopped
    have added := state.macroLines_step system line raw
    rw [stopped] at added
    rw [PassState.visits_stop stays stopped, filterMap_macroLine_cons,
      macroLines_emitted keeps added]
    exact (List.append_nil _).symm
  | @advance _ state _ line raw _ _ _ stays stepped _ ih =>
    have keeps := PassState.Keeps.of_step stepped
    have added := state.macroLines_step system line raw
    rw [stepped] at added
    rw [PassState.visits_advance stays stepped, filterMap_macroLine_cons, symbolsOf_append,
      macroLines_append, macroLines_emitted keeps added, ih]
  | shut enters blocked _ ih =>
    rw [PassState.visits_shut enters blocked, filterMap_macroLine_cons, symbolsOf_append,
      macroLines_append, macroLines_entered enters, ih]
  | enter enters readable inside _ innerIH ih =>
    rw [PassState.visits_enter enters readable inside, filterMap_macroLine_cons, symbolsOf_append,
      macroLines_append, macroLines_entered enters, symbolsOf_append, symbolsOf_passed,
      macroLines_append, innerIH, ih, List.filterMap_append]

/-- The definitions among the symbols of a journal are those of the lines that were reached. -/
theorem Reader.macroLines_journal (system : FileSystem) (depth : Nat) (path : Path)
    (inherited : Option Dialect) (place : SectionState) (reader : Reader) :
    macroLines (symbolsOf (journal system depth path inherited place reader)) =
      (visits system depth path inherited place reader).filterMap LineVisit.macroLine? := by
  rcases readable_or_blocked system depth path.normalize with
    ⟨levels, text, rfl, readable⟩ | blocked
  · have run := Runs.of_steps system levels 0 (.opening reader path.normalize inherited place)
      (Text.lines text)
    rw [journal_succ system levels path inherited place reader text readable,
      visits_readable system levels path inherited place reader text readable, symbolsOf_append,
      symbolsOf_passed, symbolsOf_nil, List.append_nil]
    exact run.macroLines_eq
  · rw [journal_unreadable system depth path inherited place reader blocked,
      visits_unreadable system depth path inherited place reader blocked]
    rfl

end FirmwareWorkspace
