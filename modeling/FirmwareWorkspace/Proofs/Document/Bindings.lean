import FirmwareWorkspace.Proofs.Document.Visits
import FirmwareWorkspace.Proofs.Registry

/-!
# What macros are bound to

A macro from the configuration has no place, and no line rebinds it. Any other macro is bound
by the live lines that define it, whatever file they stand in: the last one reached decides,
and every one but the first is reported together with the one before it.

Main result: `Reader.readAll_macros`, for any files that are read one after the other.

For one name the table and the reports form a record. `MacroRecord.define` is what a live
definition does to it, and no other line changes it; the rest is about lists of definitions.
-/
namespace FirmwareWorkspace

/-- A live line that defines a macro, with the value as it is stored. -/
structure MacroLine where
  name : String
  value : String
  location : Location
  deriving DecidableEq, Repr

namespace MacroLine

def definition (line : MacroLine) : Definition :=
  ⟨line.name, line.value, some line.location⟩

/-- The report of a definition that replaces an earlier one. -/
def redefinition (earlier later : MacroLine) : Diagnostic :=
  .duplicateMacro later.location later.name (some earlier.location)

end MacroLine

/-- The definition that a line of some kind makes. -/
def LineKind.macroLine? (location : Location) : LineKind → Option MacroLine
  | .definition name value => some ⟨name, DefinitionTable.stored value, location⟩
  | _ => none

/-- The definition that a line makes if it is live and no directive. -/
def LineVisit.macroLine? (visit : LineVisit) : Option MacroLine :=
  (visit.state.kindAt? visit.raw).bind (·.macroLine? ⟨visit.state.pass.file, visit.line⟩)

theorem LineVisit.macroLine_of_unbound (visit : LineVisit)
    (unbound : ∀ name value, visit.state.kindAt? visit.raw ≠ some (.definition name value)) :
    visit.macroLine? = none := by
  rw [macroLine?, Option.bind_eq_none_iff]
  intro kind classified
  cases kind with
  | definition name value => exact absurd classified (unbound name value)
  | _ => rfl

/-- What a macro is bound to, and what was reported of its redefinitions. -/
structure MacroRecord where
  bound : Option Definition
  duplicates : List Diagnostic
  deriving DecidableEq, Repr

def Reader.macroRecord (reader : Reader) (name : String) : MacroRecord where
  bound := reader.definitions.find? name
  duplicates := reader.diagnostics.filter (·.problem = .duplicateMacro name)

namespace MacroRecord

/-- What a definition does: nothing to a macro without a place. -/
def define (record : MacroRecord) (line : MacroLine) : MacroRecord :=
  match record.bound with
  | none => { record with bound := some line.definition }
  | some ⟨_, _, none⟩ => record
  | some ⟨_, _, some place⟩ =>
    ⟨some line.definition,
      record.duplicates ++ [.duplicateMacro line.location line.name (some place)]⟩

/-- What a line does to the record of a name. -/
def visit (name : String) (record : MacroRecord) (visit : LineVisit) : MacroRecord :=
  visit.macroLine?.elim record fun line =>
    if line.name = name then record.define line else record

/-! ### Lists of definitions -/

theorem foldl_visit (name : String) (visits : List LineVisit) (record : MacroRecord) :
    visits.foldl (visit name) record =
      ((visits.filterMap LineVisit.macroLine?).filter (·.name = name)).foldl define record := by
  induction visits generalizing record with
  | nil => rfl
  | cons first rest ih =>
    rw [List.foldl_cons, ih, List.filterMap_cons]
    cases defined : first.macroLine? with
    | none => simp only [visit, defined, Option.elim_none]
    | some line => by_cases same : line.name = name <;> simp [visit, defined, same]

/-- Definitions leave alone what has no place. -/
theorem foldl_define_of_unplaced (lines : List MacroLine) (record : MacroRecord)
    (seed : Definition) (bound : record.bound = some seed) (unplaced : seed.location = none) :
    lines.foldl define record = record := by
  induction lines with
  | nil => rfl
  | cons line rest ih =>
    have kept : record.define line = record := by
      obtain ⟨name, value, location⟩ := seed
      obtain rfl : location = none := unplaced
      simp only [define, bound]
    rw [List.foldl_cons, kept, ih]

/-- The last definition stays, and each one is reported with the one before it. -/
theorem foldl_define (first : MacroLine) (rest : List MacroLine) (told : List Diagnostic) :
    rest.foldl define ⟨some first.definition, told⟩ =
      ⟨((first :: rest).getLast?).map MacroLine.definition,
        told ++ List.zipWith MacroLine.redefinition (first :: rest) rest⟩ := by
  induction rest generalizing first told with
  | nil => simp
  | cons second rest ih =>
    have replaced : define ⟨some first.definition, told⟩ second =
        ⟨some second.definition, told ++ [first.redefinition second]⟩ := rfl
    rw [List.foldl_cons, replaced, ih, List.zipWith_cons_cons, List.append_assoc,
      List.singleton_append, List.getLast?_cons_cons]

theorem foldl_define_of_unbound (lines : List MacroLine) :
    lines.foldl define ⟨none, []⟩ =
      ⟨lines.getLast?.map MacroLine.definition,
        List.zipWith MacroLine.redefinition lines lines.tail⟩ := by
  cases lines with
  | nil => rfl
  | cons first rest => exact foldl_define first rest []

end MacroRecord

/-! ### Lines -/

namespace DefinitionTable

theorem find_set (table : DefinitionTable) (name value : String) (location : Option Location)
    (wanted : String) :
    (table.set name value location).2.find? wanted =
      if name = wanted then some ⟨name, stored value, location⟩ else table.find? wanted :=
  Registry.find_put Definition.name _ _ _

end DefinitionTable

namespace PassState

variable (name : String)

/-- A macro without a place is left alone. -/
theorem define_of_unplaced (state : PassState) (line : Nat) (value : String) (seed : Definition)
    (bound : state.reader.definitions.find? name = some seed) (unplaced : seed.location = none) :
    state.define line name value = state := by
  obtain ⟨_, _, location⟩ := seed
  obtain rfl : location = none := unplaced
  simp only [define, bound]

/-- Any other macro is bound anew, and the place it had is reported. -/
theorem define_of_placed (state : PassState) (line : Nat) (value : String)
    (placed : ∀ seed, state.reader.definitions.find? name = some seed → seed.location ≠ none) :
    (state.define line name value).reader =
      { state.reader with
        definitions :=
          (state.reader.definitions.set name value (some ⟨state.pass.file, line⟩)).2
        diagnostics := state.reader.diagnostics ++
          (((state.reader.definitions.find? name).bind (·.location)).toList.map fun place =>
            .duplicateMacro ⟨state.pass.file, line⟩ name (some place)) } := by
  cases bound : state.reader.definitions.find? name with
  | none => simp [define, DefinitionTable.set, bound]
  | some earlier =>
    obtain ⟨_, _, _ | place⟩ := earlier
    · exact absurd rfl (placed _ bound)
    · simp [define, DefinitionTable.set, bound, Reader.report]

/-- Binding a macro is what a definition does to the record of its name. -/
theorem define_macroRecord (state : PassState) (line : Nat) (defined value : String) :
    (state.define line defined value).reader.macroRecord name =
      if defined = name then
        (state.reader.macroRecord name).define
          ⟨defined, DefinitionTable.stored value, ⟨state.pass.file, line⟩⟩
      else state.reader.macroRecord name := by
  by_cases seeded : ∃ seed, state.reader.definitions.find? defined = some seed ∧
      seed.location = none
  · obtain ⟨⟨_, _, location⟩, bound, unplaced⟩ := seeded
    obtain rfl : location = none := unplaced
    rw [define_of_unplaced defined state line value _ bound rfl]
    split
    next same =>
      subst same
      simp only [Reader.macroRecord, MacroRecord.define, bound]
    · rfl
  · have placed : ∀ seed, state.reader.definitions.find? defined = some seed →
        seed.location ≠ none := fun seed bound unplaced => seeded ⟨seed, bound, unplaced⟩
    rw [define_of_placed defined state line value placed]
    simp only [Reader.macroRecord, DefinitionTable.find_set, List.filter_append]
    split
    next same =>
      subst same
      cases bound : state.reader.definitions.find? defined with
      | none => simp [MacroRecord.define, MacroLine.definition]
      | some earlier =>
        obtain ⟨_, _, _ | place⟩ := earlier
        · exact absurd rfl (placed _ bound)
        · simp [MacroRecord.define, MacroLine.definition, Diagnostic.duplicateMacro]
    next other =>
      -- The report is one of another macro.
      simp [Diagnostic.duplicateMacro, other]

theorem report_macroRecord (state : PassState) (line : Nat) (problem : Problem)
    (other : problem ≠ .duplicateMacro name) :
    (state.report line problem).reader.macroRecord name = state.reader.macroRecord name := by
  simp [Reader.macroRecord, report, Reader.report, Diagnostic.plain, other]

theorem assign_macroRecord (state : PassState) (line : Nat) (raw : String)
    (assignment : Line.PcdAssignment) :
    (state.assign line raw assignment).reader.macroRecord name =
      state.reader.macroRecord name := by
  simp only [assign]
  split <;> rfl

theorem survives_macroRecord (record : MacroRecord) :
    SurvivesDirectives fun state => state.reader.macroRecord name = record where
  report state line problem told kept := by
    rw [report_macroRecord]
    · exact kept
    · rintro rfl
      cases told
  resolver _ _ kept := kept
  place _ _ _ kept := kept
  symbol _ _ _ kept := kept
  stack _ _ kept := kept
  inclusion _ _ kept := kept

end PassState

/-- A line that defines no macro leaves every record alone. -/
theorem step_macroRecord_of_unbound (state : PassState) (system : FileSystem) (name : String)
    (line : Nat) (raw : String)
    (unbound : ∀ defined value, state.kindAt? raw ≠ some (.definition defined value)) :
    (state.step system .refuse line raw).1.reader.macroRecord name =
      state.reader.macroRecord name := by
  cases assigns : state.assignmentAt? raw with
  | some assignment =>
    rw [state.step_of_assignment system .refuse line raw assignment assigns]
    exact state.assign_macroRecord name line raw assignment
  | none =>
    exact (PassState.survives_macroRecord name _).step_unbound (fun _ _ kept => kept) state system
      line raw assigns unbound rfl

/-- Lines change the record of a macro by what they define, and nothing else does. -/
theorem replays_macroRecord (system : FileSystem) (name : String) :
    Replays system (·.macroRecord name) (MacroRecord.visit name) where
  step state line raw _ := by
    by_cases defines : ∃ defined value, state.kindAt? raw = some (.definition defined value)
    · obtain ⟨defined, value, classified⟩ := defines
      rw [state.step_of_kind system .refuse line raw _ classified]
      refine (state.define_macroRecord name line defined value).trans ?_
      simp only [MacroRecord.visit, LineVisit.macroLine?, classified, Option.bind_some,
        LineKind.macroLine?, Option.elim_some]
    · have unbound : ∀ defined value, state.kindAt? raw ≠ some (.definition defined value) :=
        fun defined value classified => defines ⟨defined, value, classified⟩
      rw [step_macroRecord_of_unbound state system name line raw unbound]
      simp only [MacroRecord.visit, LineVisit.macroLine_of_unbound ⟨state, line, raw⟩ unbound,
        Option.elim_none]
  entry state line raw entry enters := by
    have silent := LineVisit.macroLine_of_unbound ⟨state, line, raw⟩ fun defined value => by
      rw [state.kind_of_entry system line raw entry enters]
      exact Option.some_ne_none _ ∘ Eq.symm
    simp only [MacroRecord.visit, silent, Option.elim_none]
    exact (PassState.survives_macroRecord name _).entry enters rfl
  shut state line reference := by
    apply state.report_macroRecord
    intro same
    cases same
  opening _ _ _ _ := rfl
  finish state fatal := by
    -- A pass ends with a problem of its own.
    have ending : (state.ending fatal).toList.filter (·.problem = .duplicateMacro name) = [] := by
      unfold PassState.ending
      split <;> simp [Diagnostic.plain]
    simp only [Reader.macroRecord, Reader.finish_definitions, Reader.finish_diagnostics,
      List.filter_append, ending, List.append_nil]

/-! ### Several files -/

/-- Reading files leaves what their definitions make of the record that was there. -/
theorem Reader.readAll_macroRecord (reader : Reader) (system : FileSystem) (paths : List Path)
    (name : String) :
    (reader.readAll system paths).macroRecord name =
      (((reader.visitsOfAll system paths).filterMap LineVisit.macroLine?).filter
        (·.name = name)).foldl MacroRecord.define (reader.macroRecord name) := by
  have replayed := (replays_macroRecord system name).readAll reader paths
  rw [MacroRecord.foldl_visit] at replayed
  exact replayed

/-- A macro of the configuration keeps its value, and nothing is reported of it. Any other macro
is bound to the last live definition that was reached, and to nothing if there was none; every
definition but the first is reported once, with the place of the one before it. -/
theorem Reader.readAll_macros (system : FileSystem) (seeds : DefinitionTable)
    (resolver : Resolver) (files : FileSet) (paths : List Path) (name : String)
    (unplaced : ∀ seed ∈ seeds.definitions, seed.location = none) :
    let start := Reader.new (.new seeds resolver) files
    let done := start.readAll system paths
    let lines := ((start.visitsOfAll system paths).filterMap LineVisit.macroLine?).filter
      (·.name = name)
    let duplicates := done.diagnostics.filter (·.problem = .duplicateMacro name)
    (∀ seed, seeds.find? name = some seed →
      done.definitions.find? name = some seed ∧ duplicates = []) ∧
    (seeds.find? name = none →
      done.definitions.find? name = lines.getLast?.map MacroLine.definition ∧
      (done.definitions.isDefined name = true ↔ lines ≠ []) ∧
      duplicates = List.zipWith MacroLine.redefinition lines lines.tail ∧
      duplicates.length = lines.length - 1) := by
  intro start done lines duplicates
  have final : (⟨done.definitions.find? name, duplicates⟩ : MacroRecord) =
      lines.foldl MacroRecord.define ⟨seeds.find? name, []⟩ :=
    start.readAll_macroRecord system paths name
  constructor
  · intro seed bound
    have kept := MacroRecord.foldl_define_of_unplaced lines ⟨seeds.find? name, []⟩ seed bound
      (unplaced seed (List.mem_of_find?_eq_some bound))
    rw [kept, bound] at final
    exact MacroRecord.mk.inj final
  · intro unbound
    rw [unbound, MacroRecord.foldl_define_of_unbound] at final
    obtain ⟨last, told⟩ := MacroRecord.mk.inj final
    refine ⟨last, ?_, told, ?_⟩
    · simp [DefinitionTable.isDefined, last]
    · simp [told]

/-! ### A macro that is defined again in an included file -/

def buildSeeds : DefinitionTable :=
  ((DefinitionTable.new DefinitionTable.defaultPasses).set "TARGET" "DEBUG" none).2

def buildFiles : FileSystem :=
  .memory (.ofList [
    (⟨"/ws/P.dsc"⟩, "DEFINE A = 1\n!include X.inc\n"),
    (⟨"/ws/X.inc"⟩, "DEFINE A = true\nDEFINE TARGET = NOOPT\n")])

def buildStart : Reader :=
  .new (.new buildSeeds (.new ⟨"/ws"⟩ [])) .empty

def buildDone : Reader :=
  buildStart.readAll buildFiles [⟨"/ws/P.dsc"⟩]

/-- A macro of the configuration stays, and the included file decides on the other. -/
theorem buildFiles_macros :
    (∀ seed ∈ buildSeeds.definitions, seed.location = none) ∧
    buildDone.definitions.find? "TARGET" = some ⟨"TARGET", "DEBUG", none⟩ ∧
    buildDone.definitions.find? "A" = some ⟨"A", "TRUE", some ⟨⟨1⟩, 0⟩⟩ ∧
    buildDone.diagnostics.filter (·.problem = .duplicateMacro "A") =
      [.duplicateMacro ⟨⟨1⟩, 0⟩ "A" (some ⟨⟨0⟩, 0⟩)] := by
  have unplaced : ∀ seed ∈ buildSeeds.definitions, seed.location = none := by decide +kernel
  have lines : ((buildStart.visitsOfAll buildFiles [⟨"/ws/P.dsc"⟩]).filterMap
      LineVisit.macroLine?).filter (·.name = "A") =
      [⟨"A", "1", ⟨⟨0⟩, 0⟩⟩, ⟨"A", "TRUE", ⟨⟨1⟩, 0⟩⟩] := by
    decide +kernel
  have bindings := Reader.readAll_macros buildFiles buildSeeds (.new ⟨"/ws"⟩ []) .empty
    [⟨"/ws/P.dsc"⟩]
  obtain ⟨kept, _⟩ := (bindings "TARGET" unplaced).1 ⟨"TARGET", "DEBUG", none⟩ (by decide +kernel)
  obtain ⟨last, _, told, _⟩ := (bindings "A" unplaced).2 (by decide +kernel)
  rw [← buildStart, ← buildDone] at kept
  rw [← buildStart, ← buildDone, lines] at last told
  exact ⟨unplaced, kept, last, told⟩

end FirmwareWorkspace
