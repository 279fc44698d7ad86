import FirmwareWorkspace.Registry
import FirmwareWorkspace.Symbol

/-!
# Modules and packages

What a module or package says about itself, read off the symbols of its file and
of the files it includes, in their order. A later definition replaces an earlier one.
-/
namespace FirmwareWorkspace

structure ModuleInfo where
  path : Path
  file : Option FileId
  baseName : Option String
  /-- In capitals. -/
  moduleType : Option String
  /-- The library class that the module implements. -/
  libraryClass : Option String
  /-- Module types to which the library class is restricted. -/
  supportedTypes : List String
  /-- Library classes that the module consumes. -/
  libraryClasses : List String
  sources : List Path
  packages : List Path
  deriving DecidableEq, Repr

namespace ModuleInfo

def empty (path : Path) : ModuleInfo :=
  ⟨path, none, none, none, none, [], [], [], []⟩

/-- Take in a definition. -/
def define (info : ModuleInfo) (name value : String) : ModuleInfo :=
  match name with
  | "BASE_NAME" => { info with baseName := some value }
  | "MODULE_TYPE" => { info with moduleType := some (Text.upper value) }
  | "LIBRARY_CLASS" =>
    let (className, supported) := (Text.splitOnce '|' value).getD (value, "")
    { info with
      libraryClass := some (Text.trim className)
      supportedTypes := (Text.words supported).map Text.upper }
  | _ => info

def addSymbol (info : ModuleInfo) (symbol : Symbol) : ModuleInfo :=
  let info := { info with file := info.file.or (some symbol.file) }
  match symbol.kind with
  | .definition => info.define symbol.name symbol.value
  | .libraryClassUsage =>
    { info with libraryClasses := Registry.addNew (· == ·) info.libraryClasses symbol.name }
  | .source => { info with sources := info.sources ++ symbol.target.toList }
  | .package => { info with packages := info.packages ++ symbol.target.toList }
  | _ => info

def ofSymbols (path : Path) (symbols : List Symbol) : ModuleInfo :=
  symbols.foldl addSymbol (empty path)

/-- The directory of the module's file. -/
def directory (info : ModuleInfo) : Path :=
  info.path.parent?.getD ⟨""⟩

end ModuleInfo

structure PackageInfo where
  path : Path
  includeDirectories : List Path
  /-- Library classes with their headers as written. -/
  libraryClasses : List (String × String)
  deriving DecidableEq, Repr

namespace PackageInfo

def addSymbol (info : PackageInfo) (symbol : Symbol) : PackageInfo :=
  match symbol.kind, symbol.target with
  | .includeDirectory, some target =>
    { info with includeDirectories := Registry.addNew Path.same info.includeDirectories target }
  | .libraryClassDeclaration, _ =>
    { info with libraryClasses := info.libraryClasses ++ [(symbol.name, symbol.value)] }
  | _, _ => info

def ofSymbols (path : Path) (symbols : List Symbol) : PackageInfo :=
  symbols.foldl addSymbol ⟨path, [], []⟩

end PackageInfo

end FirmwareWorkspace
