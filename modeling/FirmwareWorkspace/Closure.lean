import FirmwareWorkspace.Library
import FirmwareWorkspace.Module

/-!
# Library closures

Starting from a component, the classes of every module reached are resolved in
the component's context, and the modules found are visited in turn, each once, in
the order in which they are found. A visit comes from the component or from a
binding of an earlier visit, so the number of classes of all modules bounds the
number of visits.
-/
namespace FirmwareWorkspace

def findModule? (modules : List ModuleInfo) (path : Path) : Option ModuleInfo :=
  modules.find? (·.path.same path)

/-- The first line of a module's file that uses a class. -/
def usageLocation? (index : SymbolIndex) (file : Option FileId) (className : String) :
    Option Location :=
  file.bind fun file =>
    ((index.inFile file).find? fun symbol =>
      symbol.kind = .libraryClassUsage ∧ symbol.name = className).map Symbol.location

/-- The bindings of the classes that a module uses. -/
def bindingsOf (index : SymbolIndex) (context : ConsumerContext) (consumer : Path)
    (info : ModuleInfo) : List LibraryBinding :=
  info.libraryClasses.map fun className =>
    { context := context
      consumer := consumer
      className := className
      usage := usageLocation? index info.file className
      resolution := Library.resolve index className context }

/-- The paths of a list that are not yet in `seen`, each once. -/
def unseen (seen : List Path) : List Path → List Path
  | [] => []
  | path :: rest =>
    if seen.any (·.same path) then unseen seen rest else path :: unseen (path :: seen) rest

/-- Visit the modules of a queue, with at most `visits` visits. -/
def closureFrom (index : SymbolIndex) (modules : List ModuleInfo) (context : ConsumerContext) :
    Nat → List Path → List Path → List LibraryBinding
  | 0, _, _ => []
  | _ + 1, [], _ => []
  | visits + 1, consumer :: queue, seen =>
    match findModule? modules consumer with
    | none => closureFrom index modules context visits queue seen
    | some info =>
      let bindings := bindingsOf index context consumer info
      let found := unseen seen (bindings.filterMap LibraryBinding.target?)
      bindings ++ closureFrom index modules context visits (queue ++ found) (found ++ seen)

/-- All bindings that building a component makes. -/
def libraryClosure (index : SymbolIndex) (modules : List ModuleInfo) (component : Path)
    (context : ConsumerContext) : List LibraryBinding :=
  let visits := (modules.flatMap (·.libraryClasses)).length + 1
  closureFrom index modules context visits [component] [component]

end FirmwareWorkspace
