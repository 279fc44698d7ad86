import FirmwareWorkspace.Json.Value
import FirmwareWorkspace.Snapshot

/-!
# Artifacts

What a build uses, derived from a snapshot: the list of its files and the compile
commands of its sources. Both are ordered by path.
-/
namespace FirmwareWorkspace

structure CompileCommand where
  directory : Path
  file : Path
  command : String
  deriving DecidableEq, Repr

namespace CompileCommand

/-- Commands by file, then directory, then text. -/
def before (left right : CompileCommand) : Bool :=
  left.file.before right.file ||
    (left.file.same right.file && (left.directory.before right.directory ||
      (left.directory.same right.directory && left.command < right.command)))

def toJson (command : CompileCommand) : Json.Value :=
  .object [("directory", .string command.directory.text), ("file", .string command.file.text),
    ("command", .string command.command)]

end CompileCommand

namespace Artifact

/-- The loaded modules that are components or bound libraries, in path order. -/
def modulesInUse (snapshot : Snapshot) : List ModuleInfo :=
  (Path.ordered (snapshot.components.map (·.path) ++
    snapshot.bindings.filterMap LibraryBinding.target?)).filterMap (findModule? snapshot.modules)

/-- Every file that the build reads. -/
def filesInUse (snapshot : Snapshot) : List Path :=
  let described := snapshot.documents.filter fun document =>
    document.dialect = .dsc ∨ document.dialect = .fdf
  Path.ordered (described.map (·.path) ++
    (modulesInUse snapshot).flatMap fun info => info.path :: info.sources ++ info.packages)

/-- One path to a line. -/
def fileList (snapshot : Snapshot) : String :=
  String.join ((filesInUse snapshot).map fun path => path.text ++ "\n")

def isCompiled (source : Path) : Bool :=
  ["c", "cpp", "cc"].any source.hasExtension

/-- The module's directory and the include directories of its packages, each once. -/
def includeDirectories (snapshot : Snapshot) (info : ModuleInfo) : List Path :=
  let exported := info.packages.flatMap fun package =>
    ((snapshot.packages.find? (·.path.same package)).map (·.includeDirectories)).getD []
  Registry.addAllNew Path.same [info.directory] exported

def command (config : Configuration) (includes : List Path) (source : Path) : String :=
  " ".intercalate (config.compiler :: config.compilerFlags ++
    includes.map (fun directory => "-I" ++ directory.text) ++ ["-c", source.text])

/-- The commands for the sources of a module. -/
def moduleCommands (config : Configuration) (snapshot : Snapshot) (info : ModuleInfo) :
    List CompileCommand :=
  (info.sources.filter isCompiled).map fun source =>
    ⟨info.directory, source, command config (includeDirectories snapshot info) source⟩

/-- The commands for all sources of the build, without repeats. -/
def compileDatabase (config : Configuration) (snapshot : Snapshot) : List CompileCommand :=
  Ascending.ofList CompileCommand.before
    ((modulesInUse snapshot).flatMap (moduleCommands config snapshot))

/-- The compile database as a JSON text. -/
def compileDatabaseText (config : Configuration) (snapshot : Snapshot) : String :=
  (Json.Value.array ((compileDatabase config snapshot).map CompileCommand.toJson)).spread 0 ++ "\n"

end Artifact

end FirmwareWorkspace
