import FirmwareWorkspace.Proofs.Ascending
import FirmwareWorkspace.Proofs.FileSystem.Paths

/-!
# Files in memory after changes

Files come into memory under their normal forms, so what a search gives is there and is
spelled in its normal form.
-/
namespace FirmwareWorkspace

inductive FileChange where
  | insert (path : Path) (text : String)
  | remove (path : Path)
  deriving DecidableEq, Repr

namespace MemoryFiles

def change (memory : MemoryFiles) : FileChange → MemoryFiles
  | .insert path text => memory.insert path text
  | .remove path => (memory.remove path).2

/-- The files that some changes leave. -/
def ofChanges (changes : List FileChange) : MemoryFiles :=
  changes.foldl change empty

/-- All files are kept under normal forms. -/
def IsNormal (memory : MemoryFiles) : Prop :=
  ∀ path ∈ memory.paths, path.normalize = path

theorem isNormal_change (memory : MemoryFiles) (change : FileChange) (normal : memory.IsNormal) :
    (memory.change change).IsNormal := by
  intro path member
  obtain ⟨⟨place, text⟩, listed, rfl⟩ := List.mem_map.mp member
  cases change with
  | insert path text =>
    -- An inserted file comes in under its normal form, and the others stay.
    rcases Ascending.mem_of_mem_replace _ _ _ _ listed with own | old
    · obtain ⟨rfl, rfl⟩ := Prod.mk.inj own
      exact Path.normalize_normalize path
    · exact normal _ (List.mem_map_of_mem old)
  | remove path => exact normal _ (List.mem_map_of_mem (List.mem_filter.mp listed).1)

theorem isNormal_ofChanges (changes : List FileChange) : (ofChanges changes).IsNormal := by
  have folded (memory : MemoryFiles) (normal : memory.IsNormal) :
      (changes.foldl change memory).IsNormal := by
    induction changes generalizing memory with
    | nil => exact normal
    | cons change rest ih => exact ih _ (memory.isNormal_change change normal)
  exact folded empty fun _ absent => nomatch absent

theorem contains_normalize (memory : MemoryFiles) (path : Path) :
    memory.contains path.normalize = memory.contains path := by
  rw [contains, contains, Path.normalize_normalize]

/-- What a search gives is one of the files. -/
theorem mem_paths_of_search (memory : MemoryFiles) (root path : Path) (name : String)
    (found : path ∈ memory.search root name) : path ∈ memory.paths := by
  obtain ⟨⟨file, text⟩, listed, kept⟩ := List.mem_filterMap.mp found
  dsimp only at kept
  split at kept
  · cases kept
    exact List.mem_map_of_mem listed
  · cases kept

theorem contains_of_mem_paths (memory : MemoryFiles) (normal : memory.IsNormal) (path : Path)
    (member : path ∈ memory.paths) : memory.contains path = true := by
  rw [contains, normal path member, List.any_eq_true]
  obtain ⟨file, listed, rfl⟩ := List.mem_map.mp member
  exact ⟨file, listed, List.isPrefixOf_iff_prefix.mpr (List.prefix_refl _)⟩

end MemoryFiles

end FirmwareWorkspace
