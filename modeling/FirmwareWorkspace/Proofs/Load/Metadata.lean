import FirmwareWorkspace.Proofs.Document.Defining
import FirmwareWorkspace.Proofs.Library.Written
import FirmwareWorkspace.Proofs.Load.Reporting

/-!
# What a module says about itself

The name, the type and the library class of a module are macros of its file, and the module keeps
the last definition of each. The macro table keeps the definition that was made last. The module,
however, is read off the documents of its unit, in which an included file stands in front of the
file that includes it. So a definition in front of an include wins over one in the included file,
and the two differ just if some file with a definition ended behind the file of the last one made.

Main result: `LoadUnit.moduleInfo_of_read`.
-/
namespace FirmwareWorkspace

/-! ### Last definitions -/

/-- A symbol that records a definition of a name. -/
def Symbol.IsDefinitionOf (symbol : Symbol) (name : String) : Prop :=
  symbol.kind = .definition ∧ symbol.name = name

instance (symbol : Symbol) (name : String) : Decidable (symbol.IsDefinitionOf name) :=
  inferInstanceAs (Decidable (_ ∧ _))

def definitionsOf (symbols : List Symbol) (name : String) : List Symbol :=
  symbols.filter (·.IsDefinitionOf name)

theorem macroLines_filter (symbols : List Symbol) (name : String) :
    (macroLines symbols).filter (·.name = name) =
      (definitionsOf symbols name).map Symbol.macroLine := by
  induction symbols with
  | nil => rfl
  | cons symbol rest ih =>
    have split : macroLines (symbol :: rest) = symbol.macroLine?.toList ++ macroLines rest := by
      rw [← macroLines_singleton, ← macroLines_append, List.singleton_append]
    rw [split, List.filter_append, ih]
    by_cases defines : symbol.kind = .definition
    · have kept : symbol.macroLine? = some symbol.macroLine := if_pos defines
      rw [kept, Option.toList_some]
      by_cases same : symbol.name = name
      · have own : symbol.IsDefinitionOf name := ⟨defines, same⟩
        simp [definitionsOf, own, Symbol.macroLine, same]
      · have other : ¬ symbol.IsDefinitionOf name := fun own => same own.2
        simp [definitionsOf, other, Symbol.macroLine, same]
    · have other : ¬ symbol.IsDefinitionOf name := fun own => defines own.1
      rw [Symbol.macroLine_of_other defines]
      simp [definitionsOf, other]

namespace ModuleInfo

variable (info : ModuleInfo) (symbol : Symbol)

/-- The library class in the value of its definition; module types may follow behind a bar. -/
def className (value : String) : String :=
  Text.trim ((Text.splitOnce '|' value).getD (value, "")).1

theorem baseName_define (name value : String) :
    (info.define name value).baseName =
      if name = "BASE_NAME" then some value else info.baseName := by
  unfold define
  split
  · exact (if_pos rfl).symm
  · exact (if_neg (by decide)).symm
  · exact (if_neg (by decide)).symm
  next other _ _ => exact (if_neg other).symm

theorem moduleType_define (name value : String) :
    (info.define name value).moduleType =
      if name = "MODULE_TYPE" then some (Text.upper value) else info.moduleType := by
  unfold define
  split
  · exact (if_neg (by decide)).symm
  · exact (if_pos rfl).symm
  · exact (if_neg (by decide)).symm
  next other _ => exact (if_neg other).symm

theorem libraryClass_define (name value : String) :
    (info.define name value).libraryClass =
      if name = "LIBRARY_CLASS" then some (className value) else info.libraryClass := by
  unfold define
  split
  · exact (if_neg (by decide)).symm
  · exact (if_neg (by decide)).symm
  · exact (if_pos rfl).symm
  next other => exact (if_neg other).symm

/-- A field of modules that is set by the definitions of one name, and by nothing else. -/
structure IsSetBy (field : ModuleInfo → Option String) (name : String)
    (read : String → String) : Prop where
  empty : ∀ path, field (empty path) = none
  file : ∀ (info : ModuleInfo) file, field { info with file } = field info
  define : ∀ (info : ModuleInfo) defined value,
    field (info.define defined value) = if defined = name then some (read value) else field info
  other : ∀ (info : ModuleInfo) (symbol : Symbol), symbol.kind ≠ .definition →
    field (info.addSymbol symbol) = field info

/-- A symbol that is no definition leaves the fields that definitions set. -/
theorem fields_addSymbol (other : symbol.kind ≠ .definition) :
    (info.addSymbol symbol).baseName = info.baseName ∧
      (info.addSymbol symbol).moduleType = info.moduleType ∧
      (info.addSymbol symbol).libraryClass = info.libraryClass := by
  unfold addSymbol
  dsimp only
  split
  next defines => exact absurd defines other
  all_goals exact ⟨rfl, rfl, rfl⟩

theorem baseName_isSetBy : IsSetBy baseName "BASE_NAME" id where
  empty _ := rfl
  file _ _ := rfl
  define := baseName_define
  other info symbol other := (fields_addSymbol info symbol other).1

theorem moduleType_isSetBy : IsSetBy moduleType "MODULE_TYPE" Text.upper where
  empty _ := rfl
  file _ _ := rfl
  define := moduleType_define
  other info symbol other := (fields_addSymbol info symbol other).2.1

theorem libraryClass_isSetBy : IsSetBy libraryClass "LIBRARY_CLASS" className where
  empty _ := rfl
  file _ _ := rfl
  define := libraryClass_define
  other info symbol other := (fields_addSymbol info symbol other).2.2

namespace IsSetBy

variable {field : ModuleInfo → Option String} {name : String} {read : String → String}

theorem addSymbol (isSet : IsSetBy field name read) (info : ModuleInfo) (symbol : Symbol) :
    field (info.addSymbol symbol) =
      if symbol.IsDefinitionOf name then some (read symbol.value) else field info := by
  by_cases defines : symbol.kind = .definition
  · have taken : info.addSymbol symbol = { info with
        file := info.file.or (some symbol.file) }.define symbol.name symbol.value := by
      rw [ModuleInfo.addSymbol, defines]
    rw [taken, isSet.define, isSet.file]
    simp only [Symbol.IsDefinitionOf, defines, true_and]
  · rw [isSet.other info symbol defines, if_neg fun own => defines own.1]

/-- The last definition in the order of the symbols decides. -/
theorem ofSymbols (isSet : IsSetBy field name read) (path : Path) (symbols : List Symbol) :
    field (ofSymbols path symbols) =
      (definitionsOf symbols name).getLast?.map fun symbol => read symbol.value := by
  -- What the field had before is kept only if no symbol sets it.
  have folded (info : ModuleInfo) : field (symbols.foldl ModuleInfo.addSymbol info) =
      ((definitionsOf symbols name).getLast?.map fun symbol => read symbol.value).or
        (field info) := by
    induction symbols generalizing info with
    | nil => rfl
    | cons symbol rest ih =>
      rw [List.foldl_cons, ih, isSet.addSymbol]
      by_cases own : symbol.IsDefinitionOf name
      · have listed : definitionsOf (symbol :: rest) name = symbol :: definitionsOf rest name :=
          List.filter_cons_of_pos (decide_eq_true own)
        rw [if_pos own, listed, List.getLast?_cons]
        cases (definitionsOf rest name).getLast? <;> rfl
      · have listed : definitionsOf (symbol :: rest) name = definitionsOf rest name :=
          List.filter_cons_of_neg (by simpa using own)
        rw [if_neg own, listed]
  rw [ModuleInfo.ofSymbols, folded, isSet.empty, Option.or_none]

end IsSetBy

end ModuleInfo

namespace LoadUnit

variable (config : Configuration) (system : FileSystem) (files : FileSet) (path : Path)

/-- The definitions of a name that a unit makes, in the order in which their lines are reached. -/
def written (name : String) : List Symbol :=
  definitionsOf (symbolsOf (journal config system files path)) name

/-- The definition of a name that a unit's module keeps. -/
def kept? (name : String) : Option Symbol :=
  ((endedFiles (journal config system files path)).flatMap
    (ownSymbols (written config system files path name))).getLast?

/-- A field of a unit's module is set by the last definition in the last file to end. -/
theorem field_of_read {field : ModuleInfo → Option String} {name : String}
    {read : String → String} (isSet : ModuleInfo.IsSetBy field name read) (file : FileId)
    (reader : Reader) (returned : LoadUnit.read config system files path = .ok (file, reader)) :
    field (ofReader path file reader).moduleInfo =
      (kept? config system files path name).map fun symbol => read symbol.value := by
  have symbols : (ofReader path file reader).symbols =
      unitSymbols (journal config system files path) := by
    rw [LoadUnit.symbols, unitSymbols, ofReader,
      documents_of_read config system files path file reader returned]
  rw [moduleInfo, isSet.ofSymbols, symbols, unitSymbols_journal, definitionsOf,
    filter_flatMap_ownSymbols]
  rfl

/-- The macro table of a unit holds the last definition that was made, unless the configuration
defines the macro. -/
theorem definition_of_read (file : FileId) (reader : Reader)
    (returned : LoadUnit.read config system files path = .ok (file, reader)) (name : String)
    (unseeded : config.definitions.find? name = none) :
    reader.definitions.find? name =
      (written config system files path name).getLast?.map (·.macroLine.definition) := by
  unfold read Reader.read at returned
  split at returned
  · cases returned
  next after entered =>
    cases returned
    -- The table is replayed line by line, and the unit's symbols tell the same lines.
    have replayed := (replays_macroRecord system name).readFile _ _ _ _ _ _ _ _ entered
    have fresh : (Reader.new config.context files).macroRecord name = ⟨none, []⟩ :=
      congrArg (MacroRecord.mk · []) unseeded
    rw [MacroRecord.foldl_visit, fresh, MacroRecord.foldl_define_of_unbound,
      ← Reader.macroLines_journal, macroLines_filter, List.getLast?_map] at replayed
    exact (congrArg MacroRecord.bound replayed).trans (Option.map_map _ _ _)

/-- The module keeps the definition that was made last just if no file with a definition of the
name ended behind the file of that one. -/
theorem kept_eq_some_iff (name : String) (latest : Symbol)
    (last : (written config system files path name).getLast? = some latest) :
    kept? config system files path name = some latest ↔
      ∀ other ∈ written config system files path name,
        (endedFiles (journal config system files path)).idxOf other.file ≤
          (endedFiles (journal config system files path)).idxOf latest.file := by
  have nodup : (endedFiles (journal config system files path)).Nodup :=
    Registry.nodup_addAllNew _ _ List.nodup_nil
  -- Every definition is in a file that ended, so grouping them by file loses none.
  have listed : ∀ symbol ∈ written config system files path name,
      symbol.file ∈ endedFiles (journal config system files path) := fun symbol member =>
    Reader.file_mem_endedFiles _ _ _ _ _ _ symbol (List.mem_filter.mp member).1
  obtain ⟨answer, found⟩ := exists_getLast_flatMap listed last
  rw [kept?, found, Option.some.injEq]
  exact getLast_eq_iff nodup listed last found

theorem kept_of_unwritten (name : String)
    (unwritten : written config system files path name = []) :
    kept? config system files path name = none := by
  have nothing : (endedFiles (journal config system files path)).flatMap (ownSymbols []) = [] :=
    List.flatMap_eq_nil_iff.mpr fun _ _ => rfl
  rw [kept?, unwritten, nothing, List.getLast?_nil]

/-- The name, type and class of a module that was read are those of the definitions that its unit
keeps, which are the last ones of the files that ended last. The macro table of the unit has the
definitions that were made last. Both are the same one just if no file with a definition ended
behind the file of the last one. -/
theorem moduleInfo_of_read (file : FileId) (reader : Reader)
    (returned : LoadUnit.read config system files path = .ok (file, reader)) :
    let info := (ofReader path file reader).moduleInfo
    let ended := endedFiles (journal config system files path)
    let written := written config system files path
    let kept := kept? config system files path
    info.baseName = (kept "BASE_NAME").map (·.value) ∧
      info.moduleType = (kept "MODULE_TYPE").map (fun symbol => Text.upper symbol.value) ∧
      info.libraryClass =
        (kept "LIBRARY_CLASS").map (fun symbol => ModuleInfo.className symbol.value) ∧
      ∀ name,
        (config.definitions.find? name = none →
          reader.definitions.find? name =
            (written name).getLast?.map (·.macroLine.definition)) ∧
        (written name = [] → kept name = none) ∧
        ∀ latest, (written name).getLast? = some latest →
          (kept name = some latest ↔
            ∀ other ∈ written name, ended.idxOf other.file ≤ ended.idxOf latest.file) := by
  intro info ended written kept
  refine ⟨?_, ?_, ?_, fun name => ⟨?_, ?_, ?_⟩⟩
  · exact field_of_read config system files path ModuleInfo.baseName_isSetBy file reader returned
  · exact field_of_read config system files path ModuleInfo.moduleType_isSetBy file reader returned
  · exact field_of_read config system files path ModuleInfo.libraryClass_isSetBy file reader
      returned
  · exact definition_of_read config system files path file reader returned name
  · exact kept_of_unwritten config system files path name
  · exact kept_eq_some_iff config system files path name

/-! ### A module type in front of an include -/

def typedConfig : Configuration :=
  { Configuration.initial with workspaceRoot := ⟨"/ws"⟩ }

/-- A module that includes another module type behind its own. -/
def typedFiles : FileSystem :=
  .memory (.ofList [
    (⟨"/ws/M.inf"⟩, "[Defines]\nMODULE_TYPE = BASE\n!include X.inc\n"),
    (⟨"/ws/X.inc"⟩, "MODULE_TYPE = DXE_DRIVER\n")])

/-- The included type is the one that the macro table has, but the module keeps its own. -/
theorem typedFiles_disagree :
    ∃ file reader,
      LoadUnit.read typedConfig typedFiles .empty ⟨"/ws/M.inf"⟩ = .ok (file, reader) ∧
      reader.definitions.value? "MODULE_TYPE" = some "DXE_DRIVER" ∧
      (ofReader ⟨"/ws/M.inf"⟩ file reader).moduleInfo.moduleType = some "BASE" := by
  have ⟨unseeded, last, first⟩ : typedConfig.definitions.find? "MODULE_TYPE" = none ∧
      ((written typedConfig typedFiles .empty ⟨"/ws/M.inf"⟩ "MODULE_TYPE").getLast?.map
        (·.macroLine.definition)).map (·.value) = some "DXE_DRIVER" ∧
      (kept? typedConfig typedFiles .empty ⟨"/ws/M.inf"⟩ "MODULE_TYPE").map
        (fun symbol => Text.upper symbol.value) = some "BASE" := by
    decide +kernel
  cases returned : LoadUnit.read typedConfig typedFiles .empty ⟨"/ws/M.inf"⟩ with
  | error failure =>
    have empty := journal_of_unreadable _ _ _ _ failure returned
    rw [written, empty] at last
    cases last
  | ok result =>
    have ⟨_, moduleType, _, defined⟩ :=
      moduleInfo_of_read typedConfig typedFiles .empty ⟨"/ws/M.inf"⟩ result.1 result.2 returned
    refine ⟨result.1, result.2, rfl, ?_, moduleType.trans first⟩
    rw [DefinitionTable.value?, (defined "MODULE_TYPE").1 unseeded]
    exact last

end LoadUnit

end FirmwareWorkspace
