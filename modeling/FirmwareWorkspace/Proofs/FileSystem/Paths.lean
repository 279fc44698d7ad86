import FirmwareWorkspace.FileSystem.Basic
import FirmwareWorkspace.Proofs.Path.Normal

/-!
# The paths of a file system

A file system has one path for each of its files. Whatever can be read under a normal form
is one of these paths, so files that are read under distinct normal forms are not more than
the file system has. This bounds how deeply files are nested while they are read.
-/
namespace FirmwareWorkspace

/-! ### Files in memory -/

namespace MemoryFiles

def paths (memory : MemoryFiles) : List Path :=
  memory.files.map (·.1)

variable (memory : MemoryFiles) (place : Path)

theorem mem_paths_of_find (text : String) (found : memory.find? place = some text) :
    place.normalize ∈ memory.paths := by
  obtain ⟨front, back, listed, _⟩ := List.lookup_eq_some_iff.mp found
  exact List.mem_map.mpr ⟨(place.normalize, text), by simp [listed], rfl⟩

theorem mem_paths_of_read (text : String)
    (readable : (FileSystem.memory memory).read place = .ok text) :
    place.normalize ∈ memory.paths := by
  unfold FileSystem.read at readable
  dsimp only at readable
  split at readable
  next found => exact memory.mem_paths_of_find place _ found
  · cases readable

end MemoryFiles

/-! ### Files on a disk -/

namespace DiskFiles

def paths (disk : DiskFiles) : List Path :=
  disk.files.map fun (names, _) => .ofNames false names

variable (disk : DiskFiles)

/-- No step leads back from above the working directory. -/
theorem follow_above (segments : List (List Char)) (spot : Spot)
    (arrived : disk.follow .above segments = .ok spot) : spot = .above := by
  induction segments with
  | nil =>
    cases arrived
    rfl
  | cons segment rest ih =>
    simp only [follow, step] at arrived
    by_cases stays : segment = [] ∨ segment = ['.'] ∨ segment = ['.', '.']
    · rw [if_pos stays] at arrived
      exact ih arrived
    · rw [if_neg stays] at arrived
      cases arrived

/-- A step by a name leads to that name. -/
theorem step_name (front : List String) (name : String) (isName : Path.IsName name)
    (down : name ≠ "..") (spot : Spot) (arrived : disk.step (.below front) name.toList = .ok spot) :
    spot = .below (front ++ [name]) := by
  have proper : ¬(name.toList = [] ∨ name.toList = ['.']) :=
    not_or.mpr ⟨isName.toList_ne_nil, isName.toList_ne_dot⟩
  have notUp : name.toList ≠ ['.', '.'] := fun up => down (String.toList_inj.mp up)
  simp only [step, if_neg proper, if_neg notUp, String.ofList_toList] at arrived
  -- All refusals apart, the spot is the name below the names so far.
  split at arrived
  · cases arrived
  · split at arrived
    · cases arrived
    · split at arrived
      · exact (Except.ok.inj arrived).symm
      · cases arrived

theorem follow_names (names front : List String) (isName : ∀ name ∈ names, Path.IsName name)
    (down : ∀ name ∈ names, name ≠ "..") (spot : Spot)
    (arrived : disk.follow (.below front) (names.map String.toList) = .ok spot) :
    spot = .below (front ++ names) := by
  induction names generalizing front with
  | nil =>
    cases arrived
    rw [List.append_nil]
  | cons name rest ih =>
    rw [List.map_cons, follow] at arrived
    split at arrived
    · cases arrived
    next next stepped =>
      rw [step_name disk front name (isName name (.head _)) (down name (.head _)) next stepped]
        at arrived
      rw [ih _ (fun other member => isName other (.tail _ member))
        (fun other member => down other (.tail _ member)) arrived, List.append_assoc]
      rfl

/-- A normal form leads to its own names or above the working directory. -/
theorem locate_ofNames (absolute : Bool) (names : List String) (normal : Path.IsNormal names)
    (spot : Spot) (arrived : disk.locate (.ofNames absolute names) = .ok spot) :
    spot = .above ∨ absolute = false ∧ spot = .below names := by
  unfold locate at arrived
  split at arrived
  · cases arrived
  next faultless =>
    unfold origin at arrived
    split at arrived
    · exact .inl (disk.follow_above _ spot arrived)
    next relative =>
      cases absolute with
      | true => exact absurd (by simp [Path.isAbsolute, Path.toList_ofNames]) relative
      | false =>
        cases names with
        | nil => cases faultless
        | cons first rest =>
          rw [Path.segments_relative first rest normal.isName] at arrived
          by_cases up : first = ".."
          · -- The working directory is one, and the first step leaves it.
            rw [up] at arrived
            exact .inl (disk.follow_above _ spot arrived)
          · have down (name : String) (member : name ∈ first :: rest) : name ≠ ".." := by
              rcases List.mem_cons.mp member with rfl | later
              · exact up
              · exact normal.noParent name later
            exact .inr ⟨rfl, disk.follow_names _ [] normal.isName down spot arrived⟩

theorem mem_paths_of_bytes (path : Path) (normal : path.normalize = path) (bytes : List UInt8)
    (readable : disk.bytes path = .ok bytes) : path ∈ disk.paths := by
  have spelled : path = .ofNames path.fromRoot path.normalNames := normal.symm
  rw [spelled, DiskFiles.bytes] at readable
  split at readable
  · cases readable
  · cases readable
  next names arrived =>
    split at readable
    next held contents =>
      rcases disk.locate_ofNames _ _ (Path.isNormal_normalNames path) _ arrived with
        above | ⟨relative, below⟩
      · cases above
      · cases below
        obtain ⟨front, back, listed, _⟩ := List.lookup_eq_some_iff.mp contents
        rw [spelled, relative]
        exact List.mem_map.mpr ⟨(path.normalNames, held), by simp [listed], rfl⟩
    · cases readable

end DiskFiles

/-! ### Any files -/

namespace FileSystem

def paths : FileSystem → List Path
  | memory files => files.paths
  | disk files => files.paths

theorem length_paths (system : FileSystem) : system.paths.length = system.fileCount := by
  cases system with
  | memory files => exact List.length_map _
  | disk files => exact List.length_map _

/-- A normal form that can be read is a path of the file system. -/
theorem mem_paths_of_read (system : FileSystem) (path : Path) (normal : path.normalize = path)
    (text : String) (readable : system.read path = .ok text) : path ∈ system.paths := by
  cases system with
  | memory files =>
    have listed := files.mem_paths_of_read path text readable
    rwa [normal] at listed
  | disk files =>
    cases contents : files.bytes path with
    | error fault => simp [read, DiskFiles.read, contents, Except.map] at readable
    | ok bytes => exact files.mem_paths_of_bytes path normal bytes contents

end FileSystem

/-! ### Depth -/

/-- A reader with some files open and `depth` further levels to go never runs out of levels. -/
structure IsDeep (paths : List Path) (depth : Nat) (openFiles : List Path) : Prop where
  nodup : openFiles.Nodup
  readable : openFiles ⊆ paths
  enough : paths.length < depth + openFiles.length

namespace IsDeep

variable {paths openFiles : List Path} {depth : Nat}

/-- One level more than there are files is deep enough for a reader without open files. -/
theorem idle (system : FileSystem) : IsDeep system.paths (system.fileCount + 1) [] :=
  ⟨.nil, List.nil_subset _, by
    rw [system.length_paths]
    exact Nat.lt_succ_self _⟩

theorem pos (deep : IsDeep paths depth openFiles) : 0 < depth := by
  -- Distinct files of the file system are not more than there are.
  have bound := deep.nodup.length_le_of_subset deep.readable
  have enough := deep.enough
  omega

theorem enter (deep : IsDeep paths (depth + 1) openFiles) (path : Path)
    (fresh : path ∉ openFiles) (readable : path ∈ paths) :
    IsDeep paths depth (path :: openFiles) where
  nodup := List.nodup_cons.mpr ⟨fresh, deep.nodup⟩
  readable := List.cons_subset.mpr ⟨readable, deep.readable⟩
  enough := by
    have enough := deep.enough
    rw [List.length_cons]
    omega

end IsDeep

end FirmwareWorkspace
