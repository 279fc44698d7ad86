import FirmwareWorkspace.FileSet
import FirmwareWorkspace.Proofs.Path.Normal
import Mathlib.Data.List.Forall2
import Mathlib.Data.List.Nodup

/-!
# Numbers of files

Numbering a sequence of paths gives each normal form the place of its first use. From then on
the number and the normal form determine each other, whatever is numbered later.
-/
namespace FirmwareWorkspace

/-! ### First uses -/

section FirstUses

variable {α : Type} [BEq α] [LawfulBEq α]

/-- An item that was there before is no first use. -/
theorem eraseDups_append_cons (front rest : List α) (item : α) (known : item ∈ front) :
    (front ++ item :: rest).eraseDups = (front ++ rest).eraseDups := by
  have dropped : (item :: rest).removeAll front = rest.removeAll front := by
    simp [List.removeAll, known]
  rw [List.eraseDups_append, List.eraseDups_append, dropped]

theorem eraseDups_of_nodup (items : List α) (nodup : items.Nodup) : items.eraseDups = items := by
  induction items with
  | nil => rfl
  | cons first rest ih =>
    have ⟨fresh, later⟩ := List.nodup_cons.mp nodup
    have kept : rest.filter (fun item => !item == first) = rest := by
      refine List.filter_eq_self.mpr fun item member => ?_
      have other : item ≠ first := fun equal => fresh (equal ▸ member)
      simpa using other
    rw [List.eraseDups_cons, kept, ih later]

end FirstUses

namespace FileSet

/-! ### One number -/

/-- A set of normal forms, in which none stands twice. -/
structure IsNormal (files : FileSet) : Prop where
  normal : ∀ path ∈ files.paths, path.normalize = path
  nodup : files.paths.Nodup

variable (files : FileSet) (path : Path)

/-- All that numbering a path can do. -/
theorem number_cases :
    (∃ file, files.lookup path = some file ∧ files.number path = (file, files) ∧
      path.normalize ∈ files.paths) ∨
    files.number path = (⟨files.size⟩, ⟨files.paths ++ [path.normalize]⟩) ∧
      path.normalize ∉ files.paths := by
  rw [number]
  cases found : files.lookup path with
  | none =>
    have absent := List.idxOf?_eq_none_iff.mp (Option.map_eq_none_iff.mp found)
    exact .inr ⟨rfl, absent⟩
  | some file =>
    obtain ⟨index, first, _⟩ := Option.map_eq_some_iff.mp found
    obtain ⟨inside, same, _⟩ := List.idxOf?_eq_some_iff.mp first
    exact .inl ⟨file, rfl, rfl, same ▸ List.getElem_mem inside⟩

/-- A path that is looked up stands at its number. -/
theorem path_of_lookup (file : FileId) (found : files.lookup path = some file) :
    files.path? file = some path.normalize := by
  obtain ⟨index, first, rfl⟩ := Option.map_eq_some_iff.mp found
  obtain ⟨inside, same, _⟩ := List.idxOf?_eq_some_iff.mp first
  rw [path?, List.getElem?_eq_getElem inside, same]

theorem path_number :
    (files.number path).2.path? (files.number path).1 = some path.normalize := by
  rcases files.number_cases path with ⟨file, found, numbered, _⟩ | ⟨numbered, _⟩
  · rw [numbered]
    exact files.path_of_lookup path file found
  · rw [numbered]
    exact List.getElem?_concat_length

/-- Numbers that were given stay. -/
theorem path_of_number (other : Path) (file : FileId) (known : files.path? file = some other) :
    (files.number path).2.path? file = some other := by
  rcases files.number_cases path with ⟨_, _, numbered, _⟩ | ⟨numbered, _⟩
  · rw [numbered]
    exact known
  · have inside := (List.getElem?_eq_some_iff.mp known).1
    rw [numbered]
    exact (List.getElem?_append_left inside).trans known

namespace IsNormal

variable {files path}

theorem empty : IsNormal .empty := by
  constructor
  · exact fun _ none => nomatch none
  · exact .nil

theorem number (isNormal : files.IsNormal) (path : Path) : (files.number path).2.IsNormal := by
  rcases files.number_cases path with ⟨_, _, numbered, _⟩ | ⟨numbered, fresh⟩
  · rw [numbered]
    exact isNormal
  · rw [numbered]
    constructor
    · intro other member
      rcases List.mem_append.mp member with old | new
      · exact isNormal.normal other old
      · rw [List.mem_singleton.mp new, Path.normalize_normalize]
    · refine List.nodup_append.mpr ⟨isNormal.nodup, List.nodup_singleton _, ?_⟩
      intro other old new single equal
      rw [equal, List.mem_singleton.mp single] at old
      exact fresh old

/-- Where no normal form stands twice, a path is looked up at any place where it stands. -/
theorem lookup_iff (isNormal : files.IsNormal) (path : Path) (file : FileId) :
    files.lookup path = some file ↔ files.path? file = some path.normalize := by
  refine ⟨files.path_of_lookup path file, fun stands => ?_⟩
  obtain ⟨inside, same⟩ := List.getElem?_eq_some_iff.mp stands
  -- The lookup takes the first place, and there is no other.
  have first : files.paths.idxOf? path.normalize = some file.index := by
    refine List.idxOf?_eq_some_iff.mpr ⟨inside, same, fun index before again => ?_⟩
    have equal := isNormal.nodup.getElem_inj_iff.mp (again.trans same.symm)
    exact Nat.ne_of_lt before equal
  rw [lookup, first]
  rfl

/-- A path of the set keeps its number when it is numbered again. -/
theorem number_of_path (isNormal : files.IsNormal) (file : FileId)
    (stands : files.path? file = some path) :
    path.normalize = path ∧ files.number path = (file, files) := by
  have normal := isNormal.normal path (List.mem_of_getElem? stands)
  have found := (isNormal.lookup_iff path file).mpr (by rw [normal, stands])
  exact ⟨normal, by rw [FileSet.number, found]⟩

end IsNormal

/-! ### Numbers for a sequence of paths -/

/-- The numbers of a sequence of paths, and the set in which all of them have one. -/
def numberAll (files : FileSet) : List Path → List FileId × FileSet
  | [] => ([], files)
  | path :: rest =>
    let (file, files) := files.number path
    let (later, files) := files.numberAll rest
    (file :: later, files)

section Sequence

variable (paths : List Path)

theorem IsNormal.numberAll {files : FileSet} (isNormal : files.IsNormal) :
    (files.numberAll paths).2.IsNormal := by
  induction paths generalizing files with
  | nil => exact isNormal
  | cons path rest ih => exact ih (isNormal.number path)

theorem path_of_numberAll (other : Path) (file : FileId) (known : files.path? file = some other) :
    (files.numberAll paths).2.path? file = some other := by
  induction paths generalizing files with
  | nil => exact known
  | cons path rest ih => exact ih _ (files.path_of_number path other file known)

/-- Every path of the sequence stands at its number. -/
theorem forall_path_numberAll :
    List.Forall₂ (fun path file => (files.numberAll paths).2.path? file = some path.normalize)
      paths (files.numberAll paths).1 := by
  induction paths generalizing files with
  | nil => exact .nil
  | cons path rest ih =>
    -- The number is given by the first step, and the others keep it.
    exact .cons (path_of_numberAll _ rest _ _ (files.path_number path)) (ih _)

/-- The set lists the normal forms in the order of their first use. -/
theorem paths_numberAll (isNormal : files.IsNormal) :
    (files.numberAll paths).2.paths = (files.paths ++ paths.map Path.normalize).eraseDups := by
  induction paths generalizing files with
  | nil =>
    rw [List.map_nil, List.append_nil]
    exact (eraseDups_of_nodup _ isNormal.nodup).symm
  | cons path rest ih =>
    have step := ih _ (isNormal.number path)
    rcases files.number_cases path with ⟨_, _, numbered, known⟩ | ⟨numbered, _⟩
    · rw [numbered] at step
      rw [List.map_cons, eraseDups_append_cons _ _ _ known, ← step, numberAll, numbered]
    · rw [numbered] at step
      rw [List.append_assoc, List.singleton_append] at step
      rw [List.map_cons, ← step, numberAll, numbered]

/-- The numbers themselves come up in their order. -/
theorem numbers_numberAll :
    ((List.range files.size).map FileId.mk ++ (files.numberAll paths).1).eraseDups =
      (List.range (files.numberAll paths).2.size).map FileId.mk := by
  induction paths generalizing files with
  | nil =>
    have nodup : ((List.range files.size).map FileId.mk).Nodup :=
      List.nodup_range.map fun _ _ equal => FileId.mk.inj equal
    rw [numberAll, List.append_nil]
    exact eraseDups_of_nodup _ nodup
  | cons path rest ih =>
    have step := ih (files.number path).2
    rcases files.number_cases path with ⟨file, found, numbered, _⟩ | ⟨numbered, _⟩
    · have inside := (List.getElem?_eq_some_iff.mp (files.path_of_lookup path file found)).1
      have known : file ∈ (List.range files.size).map FileId.mk :=
        List.mem_map.mpr ⟨file.index, List.mem_range.mpr inside, rfl⟩
      rw [numbered] at step
      rw [numberAll, numbered, eraseDups_append_cons _ _ _ known, step]
    · -- The new number is the next one.
      have next : (⟨files.paths ++ [path.normalize]⟩ : FileSet).size = files.size + 1 :=
        List.length_append
      rw [numbered, next, List.range_succ, List.map_append, List.append_assoc] at step
      rw [numberAll, numbered]
      exact step

end Sequence

/-- Numbers and normal forms determine each other: the numbers are `0, 1, …` in the order in
which normal forms are first used, a path has the number at which its normal form stands, and
neither changes when more paths are numbered. -/
theorem numberAll_bijective (paths : List Path) :
    let given := (empty.numberAll paths).1
    let files := (empty.numberAll paths).2
    given.eraseDups = (List.range files.size).map FileId.mk ∧
      files.paths = (paths.map Path.normalize).eraseDups ∧
      List.Forall₂ (fun path file => files.path? file = some path.normalize) paths given ∧
      (∀ path file, files.lookup path = some file ↔ files.path? file = some path.normalize) ∧
      (∀ path file, files.path? file = some path → files.number path = (file, files)) ∧
      (∀ path : Path, path.normalize.normalize = path.normalize) ∧
      ∀ later path file, files.path? file = some path →
        (files.numberAll later).2.path? file = some path ∧
          (files.numberAll later).2.lookup path = some file := by
  intro given files
  have isNormal : files.IsNormal := IsNormal.empty.numberAll paths
  refine ⟨numbers_numberAll empty paths, paths_numberAll empty paths .empty,
    forall_path_numberAll empty paths, isNormal.lookup_iff, ?_, Path.normalize_normalize, ?_⟩
  · exact fun path file stands => (isNormal.number_of_path file stands).2
  · intro later path file stands
    have kept := path_of_numberAll files later path file stands
    have normal := (isNormal.number_of_path file stands).1
    refine ⟨kept, ((isNormal.numberAll later).lookup_iff path file).mpr ?_⟩
    rw [normal, kept]

end FileSet

end FirmwareWorkspace
