import FirmwareWorkspace.Path

/-!
# Files held in memory

Files are kept under their normalized paths in path order. A directory exists
when a file lies below it.
-/
namespace FirmwareWorkspace

structure MemoryFiles where
  files : List (Path × String)
  deriving DecidableEq, Repr, Inhabited

namespace MemoryFiles

def empty : MemoryFiles := ⟨[]⟩

/-- Add or replace a file. -/
def insert (memory : MemoryFiles) (path : Path) (text : String) : MemoryFiles :=
  ⟨Ascending.replace (fun left right => left.1.before right.1) (path.normalize, text) memory.files⟩

def ofList (files : List (Path × String)) : MemoryFiles :=
  files.foldl (fun memory (path, text) => memory.insert path text) empty

def find? (memory : MemoryFiles) (path : Path) : Option String :=
  memory.files.lookup path.normalize

/-- Remove a file, and tell whether it was there. -/
def remove (memory : MemoryFiles) (path : Path) : Bool × MemoryFiles :=
  ((memory.find? path).isSome, ⟨memory.files.filter (·.1 ≠ path.normalize)⟩)

def contains (memory : MemoryFiles) (path : Path) : Bool :=
  memory.files.any fun (file, _) => file.startsWith path.normalize

/-- The files below `root` that have this name, in path order. -/
def search (memory : MemoryFiles) (root : Path) (name : String) : List Path :=
  memory.files.filterMap fun (file, _) =>
    if file.startsWith root.normalize && file.fileName? == some name then some file else none

end MemoryFiles

/-- Files in memory with the number of searches made among them. -/
structure SearchedFiles where
  memory : MemoryFiles
  searches : Nat
  deriving DecidableEq, Repr

def SearchedFiles.search (searched : SearchedFiles) (root : Path) (name : String) :
    List Path × SearchedFiles :=
  (searched.memory.search root name, { searched with searches := searched.searches + 1 })

end FirmwareWorkspace
