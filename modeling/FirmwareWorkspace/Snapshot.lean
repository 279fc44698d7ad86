import FirmwareWorkspace.Closure
import FirmwareWorkspace.LoadUnit

/-!
# Snapshots of a workspace

A snapshot is everything that one load produced. It is not changed after the load.
-/
namespace FirmwareWorkspace

/-- The tables that a root file and its includes left behind. -/
structure RootSummary where
  path : Path
  file : FileId
  definitions : DefinitionTable
  pcds : PcdTable
  deriving DecidableEq, Repr

/-- A module that the platform builds, for one architecture. -/
structure Component where
  path : Path
  declaredAt : Location
  context : ConsumerContext
  deriving DecidableEq, Repr

structure Snapshot where
  generation : Nat
  files : FileSet
  symbols : SymbolIndex
  documents : List Document
  roots : List RootSummary
  components : List Component
  modules : List ModuleInfo
  packages : List PackageInfo
  bindings : List LibraryBinding
  diagnostics : List Diagnostic
  unresolved : List UnresolvedVariable
  /-- The load was cancelled, and the snapshot holds what was done before. -/
  cancelled : Bool
  deriving Repr, Inhabited

namespace Snapshot

def new (generation : Nat) : Snapshot :=
  ⟨generation, .empty, .empty, [], [], [], [], [], [], [], [], false⟩

/-! ### Growing a snapshot -/

/-- Take in a document in place of the earlier one of its file. -/
def addDocument (snapshot : Snapshot) (document : Document) : Snapshot :=
  { snapshot with
    symbols := snapshot.symbols.add document.file document.symbols
    documents := Registry.put Document.file document snapshot.documents }

/-- Take in the variables that references name without a value, each reference once. -/
def noteUnresolved (snapshot : Snapshot) (entries : List UnresolvedVariable) : Snapshot :=
  { snapshot with
    unresolved := Registry.addAllNew (· == ·) snapshot.unresolved entries }

/-- Take in the documents and problems of a reader. -/
def absorb (snapshot : Snapshot) (documents : List Document) (diagnostics : List Diagnostic)
    (unresolved : List UnresolvedVariable) : Snapshot :=
  let snapshot := { snapshot with diagnostics := snapshot.diagnostics ++ diagnostics }
  documents.foldl addDocument (snapshot.noteUnresolved unresolved)

def absorbModule (snapshot : Snapshot) (unit : LoadUnit) : Snapshot :=
  let modules := Registry.put ModuleInfo.path unit.moduleInfo snapshot.modules
  { snapshot with modules := modules }.absorb unit.documents unit.diagnostics unit.unresolved

def absorbPackage (snapshot : Snapshot) (unit : LoadUnit) : Snapshot :=
  let packages := Registry.put PackageInfo.path unit.packageInfo snapshot.packages
  { snapshot with packages := packages }.absorb unit.documents unit.diagnostics unit.unresolved

def absorbRoot (snapshot : Snapshot) (path : Path) (file : FileId) (reader : Reader) : Snapshot :=
  let root : RootSummary := ⟨path, file, reader.definitions, reader.pcds⟩
  { snapshot with files := reader.files, roots := snapshot.roots ++ [root] }.absorb
    reader.documents reader.diagnostics reader.resolver.unresolved

/-! ### Queries -/

def document? (snapshot : Snapshot) (file : FileId) : Option Document :=
  snapshot.documents.find? (·.file = file)

/-- The lines of a file that were dead in every pass, as ranges. -/
def inactiveRanges (snapshot : Snapshot) (file : FileId) : List LineRange :=
  ((snapshot.document? file).map Document.inactiveRanges).getD []

def diagnosticsFor (snapshot : Snapshot) (file : FileId) : List Diagnostic :=
  snapshot.diagnostics.filter (·.location.file = file)

def module? (snapshot : Snapshot) (path : Path) : Option ModuleInfo :=
  snapshot.modules.find? (·.path = path.normalize)

def package? (snapshot : Snapshot) (path : Path) : Option PackageInfo :=
  snapshot.packages.find? (·.path = path.normalize)

/-- The bindings made while building a component. -/
def bindingsFor (snapshot : Snapshot) (component : Path) : List LibraryBinding :=
  snapshot.bindings.filter fun binding => Path.same ⟨binding.context.component⟩ component

/-- A macro as the first root that defines it left it. -/
def definition? (snapshot : Snapshot) (name : String) : Option Definition :=
  snapshot.roots.findSome? (·.definitions.find? name)

/-- A PCD as the first root that assigns it left it. -/
def pcd? (snapshot : Snapshot) (space name : String) : Option PcdEntry :=
  snapshot.roots.findSome? (·.pcds.find? space name)

/-! ### Components -/

/-- A component entry with a resolved module, for one of its architectures. -/
structure Declaration where
  path : Path
  declaredAt : Location
  key : String
  arch : String
  deriving DecidableEq, Repr

def componentsSection : String := "components"

/-- The declarations that a component symbol makes in a platform description. -/
def platformDeclarations (symbol : Symbol) : List Declaration :=
  symbol.target.toList.flatMap fun target =>
    (symbol.qualifiers.filter (·.sectionType = componentsSection)).map fun qualifier =>
      ⟨target, symbol.location, symbol.key, qualifier.arch⟩

/-- The declaration that a component symbol makes elsewhere, for all architectures. -/
def flashDeclaration? (symbol : Symbol) : Option Declaration :=
  symbol.target.bind fun target =>
    if symbol.qualifiers.any (·.sectionType = componentsSection) then none
    else some ⟨target, symbol.location, symbol.key, wildcard⟩

/-- The components that the root files declare. An entry of a flash layout counts
only for a module that is not declared otherwise. -/
def declaredComponents (snapshot : Snapshot) : List Declaration :=
  let symbols := snapshot.symbols.ofKind .component
  Registry.addAllNew (·.path == ·.path) (symbols.flatMap platformDeclarations)
    (symbols.filterMap flashDeclaration?)

/-- The architectures that the platform supports. -/
def supportedArchitectures (snapshot : Snapshot) : List String :=
  match snapshot.definition? "SUPPORTED_ARCHITECTURES" with
  | none => []
  | some definition =>
    ((Chars.fields (fun c => c == '|' || Chars.isBlank c) definition.value.toList).filter
      (· ≠ [])).map .ofList

/-- The module type of a loaded module, or the wildcard. -/
def moduleTypeOf (snapshot : Snapshot) (path : Path) : String :=
  ((findModule? snapshot.modules path).bind (·.moduleType)).getD wildcard

/-- The architectures for which a declaration is built. -/
def archsOf (supported : List String) (declaration : Declaration) : List String :=
  if declaration.arch = wildcard ∧ supported ≠ [] then supported else [declaration.arch]

/-- One component for each declared module and architecture, without repeats. -/
def componentContexts (snapshot : Snapshot) (declared : List Declaration) : List Component :=
  let built : List Component := declared.flatMap fun declaration =>
    (archsOf snapshot.supportedArchitectures declaration).map fun arch =>
      ⟨declaration.path, declaration.declaredAt,
        .new declaration.key arch (snapshot.moduleTypeOf declaration.path)⟩
  Registry.addAllNew (·.context == ·.context) [] built

/-- The bindings of all components. -/
def closures (snapshot : Snapshot) : List LibraryBinding :=
  snapshot.components.flatMap fun component =>
    libraryClosure snapshot.symbols snapshot.modules component.path component.context

end Snapshot

end FirmwareWorkspace
