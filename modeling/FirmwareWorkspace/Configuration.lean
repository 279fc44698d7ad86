import FirmwareWorkspace.Document.Basic
import FirmwareWorkspace.Json.Parser

/-!
# Workspace configuration

The configuration names the workspace, its package paths, the macros defined from
outside and the root files to load. In JSON it is an object of its fields, or an
array of their values in order; missing fields have default values, and anything
unknown, repeated or of the wrong type is refused.
-/
namespace FirmwareWorkspace

structure Configuration where
  workspaceRoot : Path
  /-- Seen from the workspace root, unless absolute. -/
  packagePaths : List Path
  /-- Macros with distinct names. -/
  defines : List (String × String)
  /-- Seen from the workspace root, unless absolute. -/
  roots : List Path
  maxMacroPasses : Nat
  compiler : String
  compilerFlags : List String
  deriving DecidableEq, Repr

namespace Configuration

def initial : Configuration :=
  ⟨⟨""⟩, [], [], [], DefinitionTable.defaultPasses, "clang", []⟩

/-- Macros with distinct names: of several with one name, the first place and the last value. -/
def ofDefines (defines : List (String × String)) : List (String × String) :=
  defines.foldl (fun kept define => Registry.put Prod.fst define kept) []

/-- The root files as seen from the working directory. -/
def rootPaths (config : Configuration) : List Path :=
  config.roots.map config.workspaceRoot.join

/-- The macros before any file is read. `WORKSPACE` is the workspace root unless it is defined. -/
def definitions (config : Configuration) : DefinitionTable :=
  let defines :=
    if config.defines.any (·.1 = "WORKSPACE") then config.defines
    else ("WORKSPACE", config.workspaceRoot.text) :: config.defines
  defines.foldl (fun table (name, value) => (table.set name value none).2)
    (.new config.maxMacroPasses)

def resolver (config : Configuration) : Resolver :=
  .new config.workspaceRoot config.packagePaths

/-- The tables with which every load unit starts. -/
def context (config : Configuration) : Context :=
  .new config.definitions config.resolver

/-! ### JSON -/

def fieldNames : List String :=
  ["workspace_root", "package_paths", "defines", "roots", "max_macro_iterations", "compiler",
    "compiler_flags"]

def toJson (config : Configuration) : Json.Value :=
  .object (fieldNames.zip [.string config.workspaceRoot.text,
    .strings (config.packagePaths.map Path.text),
    .object (config.defines.map fun (name, value) => (name, .string value)),
    .strings (config.roots.map Path.text), .natural config.maxMacroPasses,
    .string config.compiler, .strings config.compilerFlags])

/-- Set a field from its JSON value. -/
def setField? (config : Configuration) (name : String) (value : Json.Value) :
    Option Configuration :=
  match name with
  | "workspace_root" => value.string?.map fun text => { config with workspaceRoot := ⟨text⟩ }
  | "package_paths" =>
    value.strings?.map fun texts => { config with packagePaths := texts.map Path.mk }
  | "defines" =>
    value.stringMembers?.map fun members => { config with defines := ofDefines members }
  | "roots" => value.strings?.map fun texts => { config with roots := texts.map Path.mk }
  | "max_macro_iterations" =>
    value.natural?.bind fun count =>
      if count < 1 <<< 64 then some { config with maxMacroPasses := count } else none
  | "compiler" => value.string?.map fun text => { config with compiler := text }
  | "compiler_flags" => value.strings?.map fun texts => { config with compilerFlags := texts }
  | _ => none

/-- The fields that a JSON value gives, by name. -/
def fields? : Json.Value → Option (List (String × Json.Value))
  | .object members => if (members.map (·.1)).Nodup then some members else none
  | .array elements =>
    if elements.length ≤ fieldNames.length then some (fieldNames.zip elements) else none
  | _ => none

def ofJson? (value : Json.Value) : Option Configuration :=
  (fields? value).bind fun fields =>
    fields.foldlM (fun config (name, value) => config.setField? name value) initial

def ofText? (text : String) : Option Configuration :=
  (Json.parse? text).bind ofJson?

def render (config : Configuration) : String :=
  config.toJson.compact

end Configuration

/-- Why a configuration file gives no configuration. -/
inductive ConfigurationError where
  | unreadable (path : Path) (fault : FileFault)
  | malformed
  deriving DecidableEq, Repr

/-- Read a configuration file, which must be well-formed text. -/
def Configuration.ofFile (disk : DiskFiles) (path : Path) :
    Except ConfigurationError Configuration :=
  match disk.readStrict path with
  | .error fault => .error (.unreadable path fault)
  | .ok text =>
    match ofText? text with
    | some config => .ok config
    | none => .error .malformed

end FirmwareWorkspace
