import FirmwareWorkspace.Configuration
import FirmwareWorkspace.Document.Reading
import FirmwareWorkspace.Module

/-!
# Load units

Every module and package is a load unit of its own: it is read with fresh tables
from the configuration and shares only the numbering of files. A load may be
cancelled after a number of notifications; units that have not been started by
then are left out.
-/
namespace FirmwareWorkspace

/-- Number of notifications after which a load is cancelled, if it is. -/
structure Cancellation where
  after : Option Nat
  deriving DecidableEq, Repr

namespace Cancellation

def never : Cancellation := ⟨none⟩

def isReached (cancellation : Cancellation) (notifications : Nat) : Bool :=
  cancellation.after.any (· ≤ notifications)

end Cancellation

/-- What reading a unit produced. -/
structure LoadUnit where
  path : Path
  file : FileId
  documents : List Document
  diagnostics : List Diagnostic
  unresolved : List UnresolvedVariable
  deriving DecidableEq, Repr

namespace LoadUnit

/-- The symbols of all documents of the unit. -/
def symbols (unit : LoadUnit) : List Symbol :=
  unit.documents.flatMap (·.symbols)

def moduleInfo (unit : LoadUnit) : ModuleInfo :=
  .ofSymbols unit.path unit.symbols

def packageInfo (unit : LoadUnit) : PackageInfo :=
  .ofSymbols unit.path unit.symbols

/-- Read a file as a unit. -/
def read (config : Configuration) (system : FileSystem) (files : FileSet) (path : Path) :
    Except ReadFailure (FileId × Reader) :=
  (Reader.new config.context files).read system path

def ofReader (path : Path) (file : FileId) (reader : Reader) : LoadUnit :=
  ⟨path.normalize, file, reader.documents, reader.diagnostics, reader.resolver.unresolved⟩

end LoadUnit

/-- The result of reading units one after the other. -/
structure LoadedUnits where
  units : List LoadUnit
  files : FileSet
  /-- The paths whose units were started, in order; one notification each. -/
  started : List Path
  searches : Nat
  deriving DecidableEq, Repr

/-- Read the units at `paths`. A path that cannot be read gives no unit, but a notification. -/
def loadUnits (config : Configuration) (system : FileSystem) (cancellation : Cancellation)
    (notifications : Nat) (files : FileSet) : List Path → LoadedUnits
  | [] => ⟨[], files, [], 0⟩
  | path :: rest =>
    if cancellation.isReached notifications then ⟨[], files, [], 0⟩
    else
      match LoadUnit.read config system files path with
      | .error _ =>
        let loaded := loadUnits config system cancellation (notifications + 1) files rest
        { loaded with started := path :: loaded.started }
      | .ok (file, reader) =>
        let loaded := loadUnits config system cancellation (notifications + 1) reader.files rest
        { loaded with
          units := .ofReader path file reader :: loaded.units
          started := path :: loaded.started
          searches := reader.resolver.searches + loaded.searches }

end FirmwareWorkspace
