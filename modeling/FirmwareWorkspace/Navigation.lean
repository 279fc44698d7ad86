import FirmwareWorkspace.Snapshot

/-!
# Navigation

Where the symbol under the cursor leads, and which spans of a file are links.
-/
namespace FirmwareWorkspace

/-- A place that the reader can go to. -/
structure GotoTarget where
  path : Path
  line : Nat
  column : Nat
  deriving DecidableEq, Repr

/-- A span of a line that leads to a file. -/
structure DocumentLink where
  line : Nat
  startColumn : Nat
  endColumn : Nat
  target : Path
  tooltip : String
  deriving DecidableEq, Repr

namespace GotoTarget

/-- The beginning of a file. -/
def top (path : Path) : GotoTarget := ⟨path, 0, 0⟩

def ofSymbol (symbol : Symbol) : GotoTarget :=
  ⟨symbol.path, symbol.line, symbol.startColumn⟩

end GotoTarget

namespace Navigation

/-- The first symbol of the file whose span holds the position; both ends belong to the span. -/
def symbolAt? (snapshot : Snapshot) (file : FileId) (position : Position) : Option Symbol :=
  (snapshot.symbols.inFile file).find? fun symbol =>
    symbol.line = position.line ∧ symbol.startColumn ≤ position.column ∧
      position.column ≤ symbol.endColumn

/-- The instances that the bindings of a module found for a class, or all
declarations if no build uses the module. -/
def libraryInstances (snapshot : Snapshot) (usage : Symbol) : List GotoTarget :=
  let bindings := snapshot.bindings.filter fun binding =>
    binding.consumer.same usage.path && binding.className == usage.name
  let candidates :=
    if bindings = [] then Library.globalDeclarations snapshot.symbols usage.name
    else bindings.flatMap (·.resolution.candidates)
  (candidates.filterMap (·.target)).map .top

def isInPackage (snapshot : Snapshot) (symbol : Symbol) : Bool :=
  (snapshot.document? symbol.file).any (·.dialect = .dec)

/-- The declarations of a PCD in packages, or else its assignments, apart from the symbol itself. -/
def pcdDeclarations (snapshot : Snapshot) (symbol : Symbol) : List GotoTarget :=
  let assignments := snapshot.symbols.ofKindNamed .pcd symbol.name
  let declared := assignments.filter (isInPackage snapshot)
  let candidates := if declared = [] then assignments else declared
  (candidates.filter (·.location ≠ symbol.location)).map .ofSymbol

def declarations (snapshot : Snapshot) (kind : SymbolKind) (symbol : Symbol) : List GotoTarget :=
  (snapshot.symbols.ofKindNamed kind symbol.name).map .ofSymbol

/-- The place where the first root left the definition of a macro. -/
def macroDefinition? (snapshot : Snapshot) (symbol : Symbol) : Option GotoTarget :=
  ((snapshot.definition? symbol.name).bind (·.location)).bind fun location =>
    (snapshot.files.path? location.file).map fun path => ⟨path, location.line, 0⟩

/-- Where a symbol leads. -/
def targetsOf (snapshot : Snapshot) (symbol : Symbol) : List GotoTarget :=
  match symbol.kind with
  | .inclusion | .libraryClass | .component | .source | .package | .includeDirectory
  | .libraryClassDeclaration => symbol.target.toList.map .top
  | .libraryClassUsage => libraryInstances snapshot symbol
  | .definition => (macroDefinition? snapshot symbol).toList
  | .pcd | .pcdUsage => pcdDeclarations snapshot symbol
  | .guid => declarations snapshot .guidDeclaration symbol
  | .protocol => declarations snapshot .protocolDeclaration symbol
  | .ppi => declarations snapshot .ppiDeclaration symbol
  | .sectionHeader | .guidDeclaration | .protocolDeclaration | .ppiDeclaration => []

/-- The places to which a position leads, each once. -/
def goto (snapshot : Snapshot) (file : FileId) (position : Position) : List GotoTarget :=
  match symbolAt? snapshot file position with
  | none => []
  | some symbol => (targetsOf snapshot symbol).eraseDups

/-- Every path of a file that was found is a link. -/
def links (snapshot : Snapshot) (file : FileId) : List DocumentLink :=
  (snapshot.symbols.inFile file).filterMap fun symbol =>
    if symbol.kind.isPath then
      symbol.target.map fun target =>
        ⟨symbol.line, symbol.startColumn, symbol.endColumn, target,
          "Open " ++ symbol.kind.label ++ " '" ++ symbol.value ++ "'"⟩
    else none

end Navigation

end FirmwareWorkspace
