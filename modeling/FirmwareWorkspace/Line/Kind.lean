import FirmwareWorkspace.Line.Assignment
import FirmwareWorkspace.Qualifier

/-!
# What a line declares

A line reaches this point without its comment and with macros and PCD values
filled in. What it declares depends on the dialect, the type of the section and,
inside the block of a component, the subsection.
-/
namespace FirmwareWorkspace

/-- Identifiers that a module uses or a package declares. -/
inductive GuidKind where
  | guid | protocol | ppi
  deriving DecidableEq, Repr

inductive LineKind where
  | sectionHeader (qualifiers : List Qualifier)
  | subsection (name : String)
  | definition (name value : String)
  | libraryClass (name path : String)
  | component (path : String) (opensBlock : Bool)
  | blockOpen
  | blockClose
  | source (path : String)
  | package (path : String)
  | libraryClassUsage (name : String)
  | guidUsage (kind : GuidKind) (name : String)
  | pcdUsage (space name : String)
  | includeDirectory (path : String)
  | libraryClassDeclaration (name header : String)
  | guidDeclaration (kind : GuidKind) (name value : String)
  /-- Nothing that is recorded. -/
  | other
  deriving DecidableEq, Repr

namespace Line

/-- The first piece between blanks and bars. -/
def firstToken? (cs : List Char) : Option (List Char) :=
  (Chars.fields (fun c => c == '|' || Chars.isBlank c) cs).find? (· ≠ [])

/-- `Name|Value`; the value ends at the next bar, and neither half is empty. -/
def barPair? (cs : List Char) : Option (List Char × List Char) :=
  (Chars.splitOnce '|' cs).bind fun (name, rest) =>
    let name := Chars.trim name
    let value := Chars.trim (firstField 0 none rest)
    if name ≠ [] ∧ value ≠ [] then some (name, value) else none

def isModulePath (cs : List Char) : Bool :=
  Path.hasExtension ⟨.ofList cs⟩ "inf"

def definitionLine (cs : List Char) : LineKind :=
  match definition? cs with
  | some (name, value) => .definition (.ofList name) (.ofList value)
  | none => .other

def libraryClassLine (cs : List Char) : LineKind :=
  match barPair? cs with
  | some (name, path) => .libraryClass (.ofList name) (.ofList path)
  | none => .other

/-- A line that begins with a token. -/
def tokenLine (cs : List Char) (declares : String → LineKind) : LineKind :=
  match firstToken? cs with
  | some token => declares (.ofList token)
  | none => .other

/-- The entry of a component, possibly with the brace that opens its block. -/
def componentEntry (cs : List Char) : LineKind :=
  let (path, opensBlock) := match Chars.dropBack? ['{'] cs with
    | some path => (Chars.trim path, true)
    | none => (cs, false)
  match firstToken? path with
  | some path => if isModulePath path then .component (.ofList path) opensBlock else .other
  | none => .other

def componentsLine (subsection : Option String) (cs : List Char) : LineKind :=
  if cs = ['{'] then .blockOpen
  else if cs = ['}'] then .blockClose
  else
    match (Chars.dropFront? ['<'] cs).bind (Chars.dropBack? ['>']) with
    | some name => .subsection (.ofList (Chars.trim name))
    | none =>
      match subsection with
      | some name => if Text.sameLetters name "libraryclasses" then libraryClassLine cs else .other
      | none => componentEntry cs

/-- A module placed in a flash layout; options may stand before its path. -/
def flashLine (cs : List Char) : LineKind :=
  match Chars.dropFront? "INF ".toList cs with
  | none => .other
  | some rest =>
    match (Chars.words rest).reverse.find? isModulePath with
    | some path => .component (.ofList path) false
    | none => .other

def guidKind (sectionType : String) : GuidKind :=
  match sectionType with
  | "protocols" => .protocol
  | "ppis" => .ppi
  | _ => .guid

def guidDeclarationLine (kind : GuidKind) (cs : List Char) : LineKind :=
  match Chars.splitOnce '=' cs with
  | none => .other
  | some (name, value) =>
    let name := Chars.trim name
    if name = [] then .other else .guidDeclaration kind (.ofList name) (.ofList (Chars.trim value))

def pcdUsageLine (cs : List Char) : LineKind :=
  match (firstToken? cs).bind (Chars.splitOnce '.') with
  | some (space, name) => .pcdUsage (.ofList space) (.ofList name)
  | none => .other

def headerLine (cs : List Char) : LineKind :=
  match barPair? cs with
  | some (name, header) => .libraryClassDeclaration (.ofList name) (.ofList header)
  | none => .other

/-- A trimmed line that is neither a section header nor starts with `DEFINE`. -/
def classifyEntry (dialect : Dialect) (sectionType : String) (subsection : Option String)
    (cs : List Char) : LineKind :=
  match dialect, sectionType with
  | _, "defines" => definitionLine cs
  | .dsc, "libraryclasses" => libraryClassLine cs
  | .dsc, "components" => componentsLine subsection cs
  | .inf, "sources" => tokenLine cs .source
  | .inf, "packages" | .dsc, "packages" => tokenLine cs .package
  | .inf, "libraryclasses" => tokenLine cs .libraryClassUsage
  | .inf, "protocols" | .inf, "ppis" | .inf, "guids" =>
    tokenLine cs (.guidUsage (guidKind sectionType))
  | .inf, "pcd" | .inf, "pcdex" | .inf, "fixedpcd" | .inf, "patchpcd" | .inf, "featurepcd" =>
    pcdUsageLine cs
  | .dec, "includes" => tokenLine cs .includeDirectory
  | .dec, "libraryclasses" => headerLine cs
  | .dec, "protocols" | .dec, "ppis" | .dec, "guids" =>
    guidDeclarationLine (guidKind sectionType) cs
  | .fdf, _ => flashLine cs
  | _, _ => .other

/-- What a line declares. `sectionType` is empty before the first header. -/
def classify (dialect : Dialect) (sectionType : String) (subsection : Option String)
    (line : String) : LineKind :=
  let cs := Chars.trim line.toList
  match Qualifier.ofHeader? cs with
  | some qualifiers => .sectionHeader qualifiers
  | none =>
    match Chars.dropFront? "DEFINE ".toList cs with
    | some rest => definitionLine (Chars.trimStart rest)
    | none => classifyEntry dialect sectionType subsection cs

end Line

end FirmwareWorkspace
