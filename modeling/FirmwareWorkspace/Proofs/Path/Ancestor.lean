import FirmwareWorkspace.Proofs.Path.Normal
import Mathlib.Data.List.Induction

/-!
# Directories above a path

If a path ends with a relative reference, both in their normal form, then taking back as many
names as the reference has gives the directory from which the reference leads to the path.
-/
namespace FirmwareWorkspace.Path

/-- A spelling ends with a relative one if its names do. -/
theorem exists_front_of_endsWith (absolute : Bool) (names rest : List String)
    (isName : ∀ name ∈ names, IsName name) (isNameToo : ∀ name ∈ rest, IsName name)
    (ends : (ofNames absolute names).endsWith (ofNames false rest) = true) :
    ∃ front, names = front ++ rest := by
  rw [endsWith, parts_ofNames absolute names isName, parts_ofNames false rest isNameToo,
    if_neg Bool.false_ne_true, List.nil_append, List.isSuffixOf_iff_suffix] at ends
  have below : rest.map Part.ofName <:+ names.map Part.ofName := by
    cases absolute with
    | false => exact ends
    | true =>
      -- The root is no name, so the names of the reference do not reach it.
      rcases List.suffix_cons_iff.mp ends with whole | shorter
      · have root : Part.root ∈ rest.map Part.ofName := whole ▸ .head _
        obtain ⟨name, _, named⟩ := List.mem_map.mp root
        exact absurd named (Part.ofName_ne_root name)
      · exact shorter
  obtain ⟨front, split⟩ := below
  obtain ⟨first, second, parted, _, mapped⟩ := List.map_eq_append_iff.mp split.symm
  have same := (List.map_inj_right fun _ _ equal => Part.ofName_injective equal).mp mapped
  exact ⟨first, by rw [parted, same]⟩

/-- Taking back names from the end of a spelling leaves the names before them. -/
theorem ancestor_ofNames (absolute : Bool) (front rest : List String)
    (isName : ∀ name ∈ front ++ rest, IsName name) :
    (ofNames absolute (front ++ rest)).ancestor rest.length = ofNames absolute front := by
  induction rest using List.reverseRecOn with
  | nil => rw [List.append_nil]; rfl
  | append_singleton rest last ih =>
    rw [← List.append_assoc] at isName ⊢
    rw [List.length_append, List.length_singleton, ancestor, parent_ofNames _ _ _ isName,
      Option.getD_some]
    exact ih fun name member => isName name (List.mem_append_left _ member)

/-- A reference leads from the directory above it back to the path. -/
theorem join_ancestor (path reference : Path) (normal : path.normalize = path)
    (normalToo : reference.normalize = reference) (relative : reference.isAbsolute = false)
    (someName : reference.parts ≠ []) (ends : path.endsWith reference = true) :
    (path.ancestor reference.parts.length).join reference = path ∧
      (path.ancestor reference.parts.length).normalize =
        path.ancestor reference.parts.length := by
  have isNormal := isNormal_normalNames path
  have isNormalToo := isNormal_normalNames reference
  rw [normalize_eq_ofNames] at normal normalToo
  -- Both paths are spelled from their names, and the names of one end in those of the other.
  generalize path.normalNames = names at normal isNormal
  generalize reference.normalNames = rest at normalToo isNormalToo
  generalize path.fromRoot = absolute at normal
  have below : reference.fromRoot = false := by
    rw [← isAbsolute_ofNames reference.fromRoot rest isNormalToo.isName, normalToo, relative]
  rw [below] at normalToo
  subst normal normalToo
  obtain ⟨front, rfl⟩ := exists_front_of_endsWith absolute names rest isNormal.isName
    isNormalToo.isName ends
  have parted := parts_ofNames false rest isNormalToo.isName
  rw [if_neg Bool.false_ne_true, List.nil_append] at parted
  have count : (ofNames false rest).parts.length = rest.length := by
    rw [parted, List.length_map]
  have named : rest ≠ [] := fun empty => someName (by rw [parted, empty, List.map_nil])
  rw [count, ancestor_ofNames absolute front rest isNormal.isName]
  refine ⟨join_ofNames absolute front rest named isNormal.isName, ?_⟩
  exact normalize_ofNames absolute front (isNormal.of_append front rest)

end FirmwareWorkspace.Path
