import FirmwareWorkspace.Path
import FirmwareWorkspace.Position
import FirmwareWorkspace.Qualifier

/-!
# Symbols

A symbol is what one line of a build description declares or uses.
-/
namespace FirmwareWorkspace

inductive SymbolKind where
  | sectionHeader
  | definition
  | inclusion
  /-- A library instance for a class, from a platform or the block of a component. -/
  | libraryClass
  /-- A library class that a module consumes. -/
  | libraryClassUsage
  /-- The header of a library class, from a package. -/
  | libraryClassDeclaration
  | component
  | pcd
  | pcdUsage
  | source
  | package
  | guid
  | protocol
  | ppi
  | guidDeclaration
  | protocolDeclaration
  | ppiDeclaration
  | includeDirectory
  deriving DecidableEq, Repr

namespace SymbolKind

/-- The name of a kind as readers see it. -/
def label : SymbolKind → String
  | sectionHeader => "section"
  | definition => "define"
  | inclusion => "include"
  | libraryClass => "library class"
  | libraryClassUsage => "library class usage"
  | libraryClassDeclaration => "library class declaration"
  | component => "component"
  | pcd => "pcd"
  | pcdUsage => "pcd usage"
  | source => "source"
  | package => "package"
  | guid => "guid"
  | protocol => "protocol"
  | ppi => "ppi"
  | guidDeclaration => "guid declaration"
  | protocolDeclaration => "protocol declaration"
  | ppiDeclaration => "ppi declaration"
  | includeDirectory => "include directory"

/-- Whether the value of such a symbol names a file or directory. -/
def isPath : SymbolKind → Bool
  | inclusion | libraryClass | component | source | package | includeDirectory
  | libraryClassDeclaration => true
  | _ => false

end SymbolKind

structure Symbol where
  kind : SymbolKind
  name : String
  /-- The right-hand side, with macros and PCD values filled in. -/
  value : String
  /-- The line as written, without its comment. -/
  detail : String
  file : FileId
  /-- Normalized path of the file. -/
  path : Path
  line : Nat
  startColumn : Nat
  endColumn : Nat
  /-- Qualifiers of the section. -/
  qualifiers : List Qualifier
  /-- Key of the component in whose block the line stands. -/
  owner : Option String
  /-- The file that a path-valued symbol names. -/
  target : Option Path
  deriving DecidableEq, Repr

namespace Symbol

def location (symbol : Symbol) : Location :=
  ⟨symbol.file, symbol.line⟩

def start (symbol : Symbol) : Position :=
  ⟨symbol.line, symbol.startColumn⟩

def stop (symbol : Symbol) : Position :=
  ⟨symbol.line, symbol.endColumn⟩

/-- Key of the file that the symbol names: its normalized target, or else the value as written. -/
def key (symbol : Symbol) : String :=
  match symbol.target with
  | some target => target.normalize.text
  | none => symbol.value

def isMatch (symbol : Symbol) (sectionType arch moduleType : String) : Bool :=
  symbol.qualifiers.any fun qualifier => qualifier.isMatch sectionType arch moduleType

end Symbol

end FirmwareWorkspace
