import FirmwareWorkspace.Conditional
import FirmwareWorkspace.Definition
import FirmwareWorkspace.Diagnostic
import FirmwareWorkspace.Dialect
import FirmwareWorkspace.Document.Directive
import FirmwareWorkspace.Expression.Evaluation
import FirmwareWorkspace.FileSet
import FirmwareWorkspace.Pcd
import FirmwareWorkspace.Resolver

/-!
# Documents and the state of reading them

A reader goes through a file and everything it includes. Macros, PCDs and search
roots belong to the reader, and the section in which a line stands goes on across
includes. Each pass over a file has its own conditionals. A file that is passed
several times keeps the symbols of all passes and the lines that were dead in
every one.
-/
namespace FirmwareWorkspace

/-- What a file contributed. -/
structure Document where
  file : FileId
  path : Path
  dialect : Dialect
  symbols : List Symbol
  /-- Lines that were dead in every pass, ascending. -/
  inactiveLines : List Nat
  /-- The files that this one includes. -/
  includes : List Path
  /-- How often the file was entered. -/
  passes : Nat
  deriving DecidableEq, Repr

def Document.inactiveRanges (document : Document) : List LineRange :=
  LineRange.coalesce document.inactiveLines

/-- Where in its sections the reader stands. -/
structure SectionState where
  qualifiers : List Qualifier
  /-- Type of the first qualifier; empty before the first header. -/
  sectionType : String
  /-- Key of the last component entry of the section. -/
  component : Option String
  /-- Whether the block of that component is open. -/
  inBlock : Bool
  /-- The subsection of the block, in lower case. -/
  subsection : Option String
  deriving DecidableEq, Repr

namespace SectionState

def initial : SectionState := ⟨[], "", none, false, none⟩

/-- Start a section. -/
def enter (qualifiers : List Qualifier) : SectionState :=
  ⟨qualifiers, ((qualifiers.head?).map (·.sectionType)).getD "", none, false, none⟩

/-- The component whose block is open. -/
def owner (place : SectionState) : Option String :=
  if place.inBlock then place.component else none

end SectionState

/-- The tables that the files of one load unit share. -/
structure Context where
  definitions : DefinitionTable
  pcds : PcdTable
  resolver : Resolver
  diagnostics : List Diagnostic
  deriving DecidableEq, Repr

namespace Context

def new (definitions : DefinitionTable) (resolver : Resolver) : Context :=
  ⟨definitions, .empty, resolver, []⟩

/-- Macros and PCDs as conditions see them. -/
def scope (context : Context) : Expression.Scope :=
  ⟨context.definitions.macroText, context.pcds.value?⟩

end Context

structure Reader extends Context where
  files : FileSet
  /-- The files being read, innermost first. -/
  openFiles : List Path
  /-- Documents in the order in which their first pass ended. -/
  documents : List Document
  deriving DecidableEq, Repr

/-- One pass over a file. -/
structure FilePass where
  file : FileId
  path : Path
  dialect : Dialect
  stack : ConditionalStack
  symbols : List Symbol
  inactive : List Nat
  includes : List Path
  deriving DecidableEq, Repr

def FilePass.new (file : FileId) (path : Path) (dialect : Dialect) : FilePass :=
  ⟨file, path, dialect, .empty, [], [], []⟩

namespace Reader

def new (context : Context) (files : FileSet) : Reader :=
  { context with files := files, openFiles := [], documents := [] }

def report (reader : Reader) (diagnostic : Diagnostic) : Reader :=
  { reader with diagnostics := reader.diagnostics ++ [diagnostic] }

/-- Merge a further pass into a document. -/
def merge (document : Document) (pass : FilePass) : Document :=
  { document with
    symbols := document.symbols ++ pass.symbols
    inactiveLines := document.inactiveLines.filter (· ∈ pass.inactive)
    includes := Registry.addAllNew (· == ·) document.includes pass.includes
    passes := document.passes + 1 }

/-- The document of a first pass. -/
def document (pass : FilePass) : Document :=
  ⟨pass.file, pass.path, pass.dialect, pass.symbols, pass.inactive, pass.includes, 1⟩

/-- Record a finished pass in the document of its file. -/
def recordIn (pass : FilePass) : List Document → List Document
  | [] => [document pass]
  | first :: rest =>
    if first.file = pass.file then merge first pass :: rest else first :: recordIn pass rest

def record (reader : Reader) (pass : FilePass) : Reader :=
  { reader with documents := recordIn pass reader.documents }

end Reader

/-- The state in the middle of a pass. -/
structure PassState where
  reader : Reader
  place : SectionState
  pass : FilePass
  deriving DecidableEq, Repr

namespace PassState

/-- Report a problem with a line of the file. -/
def report (state : PassState) (line : Nat) (problem : Problem) : PassState :=
  { state with reader := state.reader.report (.plain ⟨state.pass.file, line⟩ problem) }

def setStack (state : PassState) (stack : ConditionalStack) : PassState :=
  { state with pass := { state.pass with stack := stack } }

def addSymbol (state : PassState) (symbol : Symbol) : PassState :=
  { state with pass := { state.pass with symbols := state.pass.symbols ++ [symbol] } }

def markInactive (state : PassState) (line : Nat) : PassState :=
  { state with pass := { state.pass with inactive := state.pass.inactive ++ [line] } }

/-- A symbol for a line of the file. It covers the code of the line. -/
def symbol (state : PassState) (kind : SymbolKind) (line : Nat) (raw name value : String) :
    Symbol where
  kind := kind
  name := name
  value := value
  detail := Line.code raw
  file := state.pass.file
  path := state.pass.path
  line := line
  startColumn := Line.indentation raw
  endColumn := Line.indentation raw + Text.byteLength (Line.code raw)
  qualifiers := state.place.qualifiers
  owner := none
  target := none

end PassState

end FirmwareWorkspace
