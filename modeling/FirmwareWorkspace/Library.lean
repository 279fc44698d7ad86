import FirmwareWorkspace.Registry
import FirmwareWorkspace.SymbolIndex

/-!
# Library instances

A library class is bound to an instance by declarations of the platform. The
last override in the block of the consuming component wins. Without one, the
declarations that apply to the consumer compete: those for its module type rule
out general ones, and of the rest those for its architecture rule out general
ones. Several declarations that remain, with different values, are an ambiguity.
-/
namespace FirmwareWorkspace

def libraryClassesSection : String := "libraryclasses"

/-- For whom a class is resolved. -/
structure ConsumerContext where
  /-- Key of the component that is built. -/
  component : String
  /-- Architecture in lower case, or the wildcard. -/
  arch : String
  /-- Module type in lower case, or the wildcard. -/
  moduleType : String
  deriving DecidableEq, Repr

def ConsumerContext.new (component arch moduleType : String) : ConsumerContext :=
  ⟨component, Qualifier.restriction arch, Qualifier.restriction moduleType⟩

inductive LibraryResolution where
  | found (symbol : Symbol)
  | ambiguous (symbols : List Symbol)
  | notFound
  deriving DecidableEq, Repr

namespace LibraryResolution

def symbol? : LibraryResolution → Option Symbol
  | found symbol => some symbol
  | _ => none

def isFound (resolution : LibraryResolution) : Bool :=
  resolution.symbol?.isSome

def isAmbiguous : LibraryResolution → Bool
  | ambiguous _ => true
  | _ => false

/-- The single declaration, or all that tie. -/
def candidates : LibraryResolution → List Symbol
  | found symbol => [symbol]
  | ambiguous symbols => symbols
  | notFound => []

/-- The answer that the remaining declarations give. -/
def ofCandidates : List Symbol → LibraryResolution
  | [] => notFound
  | [symbol] => found symbol
  | symbols => ambiguous symbols

end LibraryResolution

/-- A library class that a module consumes, and what it resolves to. -/
structure LibraryBinding where
  context : ConsumerContext
  /-- The module that names the class. -/
  consumer : Path
  className : String
  /-- The line that names the class. -/
  usage : Option Location
  resolution : LibraryResolution
  deriving DecidableEq, Repr

/-- The module that the binding brings in. -/
def LibraryBinding.target? (binding : LibraryBinding) : Option Path :=
  binding.resolution.symbol?.bind (·.target)

namespace Library

/-- How narrowly a declaration applies to a consumer. -/
structure Specificity where
  moduleType : Bool
  arch : Bool
  deriving DecidableEq, Repr

namespace Specificity

def ofQualifier (qualifier : Qualifier) : Specificity :=
  ⟨qualifier.isModuleTypeSpecific, qualifier.isArchSpecific⟩

/-- The module type weighs more than the architecture. -/
def weight (specificity : Specificity) : Nat :=
  2 * specificity.moduleType.toNat + specificity.arch.toNat

def max (left right : Specificity) : Specificity :=
  if left.weight ≤ right.weight then right else left

end Specificity

def covers (stored wanted : String) : Bool :=
  stored == wildcard || wanted == wildcard || stored == wanted

/-- Whether a qualifier speaks about library classes of the consumer. -/
def applies (context : ConsumerContext) (qualifier : Qualifier) : Bool :=
  qualifier.sectionType == libraryClassesSection && covers qualifier.arch context.arch &&
    covers qualifier.moduleType context.moduleType

/-- The narrowest qualifier of a declaration that applies, if any does. -/
def specificity? (context : ConsumerContext) (symbol : Symbol) : Option Specificity :=
  match (symbol.qualifiers.filter (applies context)).map Specificity.ofQualifier with
  | [] => none
  | first :: rest => some (rest.foldl Specificity.max first)

/-- The specific candidates, or all if none is specific. -/
def keepSpecific (isSpecific : Specificity → Bool) (candidates : List (Symbol × Specificity)) :
    List (Symbol × Specificity) :=
  if candidates.any fun (_, specificity) => isSpecific specificity then
    candidates.filter fun (_, specificity) => isSpecific specificity
  else candidates

/-- The first symbol of every value. -/
def distinctValues (symbols : List Symbol) : List Symbol :=
  Registry.addAllNew (·.value == ·.value) [] symbols

def declarations (index : SymbolIndex) (className : String) : List Symbol :=
  index.ofKindNamed .libraryClass className

/-- The declarations outside all component blocks. -/
def globalDeclarations (index : SymbolIndex) (className : String) : List Symbol :=
  (declarations index className).filter (·.owner.isNone)

/-- The overrides in the block of the component. -/
def overrides (index : SymbolIndex) (className : String) (context : ConsumerContext) :
    List Symbol :=
  (declarations index className).filter (·.owner = some context.component)

/-- The declarations that no narrower one rules out. -/
def survivors (index : SymbolIndex) (className : String) (context : ConsumerContext) :
    List Symbol :=
  let applicable := (globalDeclarations index className).filterMap fun symbol =>
    (specificity? context symbol).map fun specificity => (symbol, specificity)
  let narrowed := keepSpecific (·.arch) (keepSpecific (·.moduleType) applicable)
  distinctValues (narrowed.map (·.1))

def resolve (index : SymbolIndex) (className : String) (context : ConsumerContext) :
    LibraryResolution :=
  match (overrides index className context).getLast? with
  | some symbol => .found symbol
  | none => .ofCandidates (survivors index className context)

end Library

end FirmwareWorkspace
