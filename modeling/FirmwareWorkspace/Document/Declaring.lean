import FirmwareWorkspace.Document.Basic
import FirmwareWorkspace.Line.Kind

/-!
# Recording what lines declare

A live line that is no directive either assigns a PCD or is classified. An
assignment in the block of a component belongs to the component and leaves the
table alone.
-/
namespace FirmwareWorkspace.PassState

/-- Bind a macro. A value from the configuration stays; any other earlier
definition is replaced and reported. -/
def define (state : PassState) (line : Nat) (name value : String) : PassState :=
  let location : Location := ⟨state.pass.file, line⟩
  match state.reader.definitions.find? name with
  | some ⟨_, _, none⟩ => state
  | _ =>
    let (previous, definitions) := state.reader.definitions.set name value (some location)
    let reader := { state.reader with definitions := definitions }
    { state with
      reader := match previous with
        | some previous => reader.report (.duplicateMacro location name previous.location)
        | none => reader }

/-- Look up a path that a line names, and report it if it cannot be found. -/
def resolvePath (state : PassState) (system : FileSystem) (line : Nat) (what path : String)
    (global : Bool) : Option Path × PassState :=
  let (resolution, resolver) :=
    state.reader.resolver.lookup system path (some state.pass.path) global
  let state := { state with reader := { state.reader with resolver := resolver } }
  match resolution with
  | .found target => (some target, state)
  | .unresolved name => (none, state.report line (.unresolvedVariable name path))
  | .notFound | .rejected => (none, state.report line (.unresolvedPath what path))

/-- Record a symbol whose value is a path. -/
def declarePath (state : PassState) (system : FileSystem) (line : Nat) (symbol : Symbol)
    (what : String) (global : Bool) : PassState :=
  let (target, state) := state.resolvePath system line what symbol.value global
  state.addSymbol { symbol with target := target }

/-- Report the unknown types of a section header, each once. -/
def reportUnknownSections (state : PassState) (line : Nat) (qualifiers : List Qualifier) :
    PassState :=
  let types := (qualifiers.map (·.sectionType)).eraseDups
  (types.filter fun type => !state.pass.dialect.isKnownSection type).foldl
    (fun state type => state.report line (.unknownSection type)) state

def enterSection (state : PassState) (line : Nat) (raw text : String)
    (qualifiers : List Qualifier) : PassState :=
  let state := state.reportUnknownSections line qualifiers
  let state := { state with place := SectionState.enter qualifiers }
  state.addSymbol (state.symbol .sectionHeader line raw state.place.sectionType (Text.trim text))

/-- Record a component entry; the lines of a block that follow belong to it. -/
def declareComponent (state : PassState) (system : FileSystem) (line : Nat) (raw path : String)
    (opensBlock : Bool) : PassState :=
  let symbol := state.symbol .component line raw path path
  let (target, state) := state.resolvePath system line "module" path true
  let symbol := { symbol with target := target }
  let place := { state.place with
    component := some symbol.key, inBlock := opensBlock, subsection := none }
  { state with place := place }.addSymbol symbol

/-- Record the header of a library class; a missing header is not reported. -/
def declareHeader (state : PassState) (system : FileSystem) (line : Nat)
    (raw name header : String) : PassState :=
  let (resolution, resolver) :=
    state.reader.resolver.resolveLocal system header (some state.pass.path)
  let state := { state with reader := { state.reader with resolver := resolver } }
  state.addSymbol
    { state.symbol .libraryClassDeclaration line raw name header with target := resolution.path? }

def usageKind : GuidKind → SymbolKind
  | .guid => .guid
  | .protocol => .protocol
  | .ppi => .ppi

def declarationKind : GuidKind → SymbolKind
  | .guid => .guidDeclaration
  | .protocol => .protocolDeclaration
  | .ppi => .ppiDeclaration

/-- Take in a classified line; `text` is the line with macros and PCD values filled in. -/
def declare (state : PassState) (system : FileSystem) (line : Nat) (raw text : String) :
    LineKind → PassState
  | .sectionHeader qualifiers => state.enterSection line raw text qualifiers
  | .subsection name =>
    { state with place := { state.place with subsection := some (Text.lower name) } }
  | .definition name value =>
    (state.define line name value).addSymbol (state.symbol .definition line raw name value)
  | .libraryClass name path =>
    state.declarePath system line
      { state.symbol .libraryClass line raw name path with owner := state.place.owner }
      "library instance" true
  | .component path opensBlock => state.declareComponent system line raw path opensBlock
  | .blockOpen =>
    { state with place := { state.place with
      inBlock := state.place.component.isSome, subsection := none } }
  | .blockClose => { state with place := { state.place with inBlock := false, subsection := none } }
  | .source path =>
    state.declarePath system line (state.symbol .source line raw path path) "source file" false
  | .package path =>
    state.declarePath system line (state.symbol .package line raw path path) "package" true
  | .libraryClassUsage name =>
    state.addSymbol (state.symbol .libraryClassUsage line raw name name)
  | .guidUsage kind name => state.addSymbol (state.symbol (usageKind kind) line raw name name)
  | .pcdUsage space name =>
    state.addSymbol (state.symbol .pcdUsage line raw (space ++ "." ++ name) (space ++ "." ++ name))
  | .includeDirectory path =>
    state.declarePath system line (state.symbol .includeDirectory line raw path path)
      "include directory" false
  | .libraryClassDeclaration name header => state.declareHeader system line raw name header
  | .guidDeclaration kind name value =>
    state.addSymbol (state.symbol (declarationKind kind) line raw name value)
  | .other => state

/-- Take in a PCD assignment. Values of other PCDs are filled in on its right-hand side only. -/
def assign (state : PassState) (line : Nat) (raw : String) (assignment : Line.PcdAssignment) :
    PassState :=
  let value := state.reader.pcds.replaceInLine assignment.value
  let symbol := { state.symbol .pcd line raw (assignment.space ++ "." ++ assignment.name) value with
    owner := state.place.owner }
  match state.place.owner with
  | some _ => state.addSymbol symbol
  | none =>
    let pcds := state.reader.pcds.set assignment.space assignment.name value ⟨state.pass.file, line⟩
    { state with reader := { state.reader with pcds := pcds } }.addSymbol symbol

/-- Take in a live line that is no directive. -/
def declareLine (state : PassState) (system : FileSystem) (line : Nat) (raw : String) : PassState :=
  let expanded := state.reader.definitions.replaceAll (Line.code raw)
  match Line.pcdAssignment? state.pass.dialect expanded with
  | some assignment => state.assign line raw assignment
  | none =>
    let text := state.reader.pcds.replaceInLine expanded
    state.declare system line raw text
      (Line.classify state.pass.dialect state.place.sectionType state.place.subsection text)

end FirmwareWorkspace.PassState
