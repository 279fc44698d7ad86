import FirmwareWorkspace.Text.Cut

/-!
# Section qualifiers

A section header lists qualifiers, each with a section type, an architecture and
a module type. A missing architecture or module type, and the word `common`, is
the wildcard, which matches anything.
-/
namespace FirmwareWorkspace

def wildcard : String := "*"

/-- One qualifier, in lower case. -/
structure Qualifier where
  sectionType : String
  arch : String
  moduleType : String
  deriving DecidableEq, Repr

namespace Qualifier

/-- The stored form of an architecture or module type. -/
def restriction (text : String) : String :=
  let text := Text.trim text
  if text = "" ∨ Text.sameLetters text "common" then wildcard else Text.lower text

def new (sectionType arch moduleType : String) : Qualifier :=
  ⟨Text.lower sectionType, restriction arch, restriction moduleType⟩

/-- A wildcard on either side matches; other texts match up to letter case. -/
def fieldMatches (stored query : String) : Bool :=
  stored == wildcard || query == wildcard || Text.sameLetters stored query

def isMatch (qualifier : Qualifier) (sectionType arch moduleType : String) : Bool :=
  fieldMatches qualifier.sectionType sectionType && fieldMatches qualifier.arch arch &&
    fieldMatches qualifier.moduleType moduleType

def isArchSpecific (qualifier : Qualifier) : Bool :=
  qualifier.arch ≠ wildcard

def isModuleTypeSpecific (qualifier : Qualifier) : Bool :=
  qualifier.moduleType ≠ wildcard

/-- The qualifier written as `Type.Arch.ModuleType`; later fields are ignored. -/
def ofChars (cs : List Char) : Qualifier :=
  let fields := (Chars.fields (· == '.') cs).map fun field => String.ofList (Chars.trim field)
  new (fields[0]?.getD "") (fields[1]?.getD "") (fields[2]?.getD "")

/-- The qualifiers of a section header, or none if the line is no header or lists none. -/
def ofHeader? (line : List Char) : Option (List Qualifier) :=
  match (Chars.dropFront? ['['] (Chars.trim line)).bind (Chars.dropBack? [']']) with
  | none => none
  | some inner =>
    let pieces := ((Chars.fields (· == ',') inner).map Chars.trim).filter (· ≠ [])
    if pieces = [] then none else some (pieces.map ofChars)

end Qualifier

end FirmwareWorkspace
