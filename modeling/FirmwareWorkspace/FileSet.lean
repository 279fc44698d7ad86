import FirmwareWorkspace.Path
import FirmwareWorkspace.Position

/-!
# Numbering files

A file set numbers normalized paths in the order of their first use. The number
of a path is its place in the list, so numbers are never given twice and never
change.
-/
namespace FirmwareWorkspace

structure FileSet where
  paths : List Path
  deriving DecidableEq, Repr, Inhabited

namespace FileSet

def empty : FileSet := ⟨[]⟩

def size (files : FileSet) : Nat :=
  files.paths.length

def lookup (files : FileSet) (path : Path) : Option FileId :=
  (files.paths.idxOf? path.normalize).map FileId.mk

/-- The number of a path, and the set in which it has one. -/
def number (files : FileSet) (path : Path) : FileId × FileSet :=
  match files.lookup path with
  | some file => (file, files)
  | none => (⟨files.size⟩, ⟨files.paths ++ [path.normalize]⟩)

def path? (files : FileSet) (file : FileId) : Option Path :=
  files.paths[file.index]?

def entries (files : FileSet) : List (FileId × Path) :=
  files.paths.zipIdx.map fun (path, index) => (⟨index⟩, path)

end FileSet

end FirmwareWorkspace
