import FirmwareWorkspace.FileSystem.Disk
import FirmwareWorkspace.FileSystem.Memory

/-!
# File systems

A load reads, probes and searches files through these functions only.
-/
namespace FirmwareWorkspace

inductive FileSystem where
  | memory (files : MemoryFiles)
  | disk (files : DiskFiles)
  deriving DecidableEq, Repr

/-- A file that could not be read, and why. -/
structure ReadFailure where
  path : Path
  fault : FileFault
  deriving DecidableEq, Repr

/-- A failure is told by the path that was asked for. -/
def ReadFailure.message (failure : ReadFailure) : String :=
  failure.path.text

namespace FileSystem

def read (system : FileSystem) (path : Path) : Except ReadFailure String :=
  match system with
  | memory files =>
    match files.find? path with
    | some text => .ok text
    | none => .error ⟨path, .notFound⟩
  | disk files =>
    match files.read path with
    | .ok text => .ok text
    | .error fault => .error ⟨path, fault⟩

/-- Whether a file or directory is there. -/
def contains (system : FileSystem) (path : Path) : Bool :=
  match system with
  | memory files => files.contains path
  | disk files => files.contains path

def search (system : FileSystem) (root : Path) (name : String) : List Path :=
  match system with
  | memory files => files.search root name
  | disk files => files.search root name

/-- Number of files, which bounds how deeply files can include each other. -/
def fileCount : FileSystem → Nat
  | memory files => files.files.length
  | disk files => files.files.length

/-- A bound on the number of normalized paths that lookups give: in memory the files
and the directories above them; on a disk the files, their normalized paths if these
differ, the directories, the root, and the places above the working directory. -/
def pathCount : FileSystem → Nat
  | memory files => files.files.length + (files.files.flatMap (·.1.parts)).length
  | disk files => 2 * files.files.length + files.directories.length + 4

end FileSystem

end FirmwareWorkspace
