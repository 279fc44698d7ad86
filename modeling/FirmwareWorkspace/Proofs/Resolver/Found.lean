import FirmwareWorkspace.Proofs.Path.Normal
import FirmwareWorkspace.Resolver

/-!
# What lookups find

Whatever a lookup finds is spelled in its normal form, wherever it was looked for.
-/
namespace FirmwareWorkspace.Resolver

theorem normalize_of_searched (resolver : Resolver) (system : FileSystem) (reference path : Path)
    (found : (resolver.searchGlobally system reference).1 = .found path) :
    path.normalize = path := by
  unfold searchGlobally at found
  split at found
  · cases found
  · split at found
    · cases found
    · dsimp only at found
      split at found
      · cases found
      next place searched =>
        -- A root that was searched gives its files in normal form.
        obtain ⟨file, _, same⟩ := List.mem_map.mp (List.mem_of_find?_eq_some searched)
        rw [← Resolution.found.inj found, ← same, Path.normalize_normalize]

theorem normalize_of_lookupPath (resolver : Resolver) (system : FileSystem) (reference : Path)
    (referrer : Option Path) (global : Bool) (path : Path)
    (normal : reference.normalize = reference)
    (found : (resolver.lookupPath system reference referrer global).1 = .found path) :
    path.normalize = path := by
  unfold lookupPath at found
  split at found
  · dsimp only at found
    split at found
    · rw [← Resolution.found.inj found, normal]
    · cases found
  · split at found
    next place candidate =>
      obtain ⟨directory, _, joined⟩ := List.mem_map.mp (List.mem_of_find?_eq_some candidate)
      rw [← Resolution.found.inj found, ← joined, Path.normalize_normalize]
    · split at found
      · exact normalize_of_searched resolver system reference path found
      · cases found

/-- Lookups find paths in their normal form. -/
theorem normalize_of_found (resolver : Resolver) (system : FileSystem) (text : String)
    (referrer : Option Path) (global : Bool) (path : Path)
    (found : (resolver.lookup system text referrer global).1 = .found path) :
    path.normalize = path := by
  unfold lookup at found
  dsimp only at found
  split at found
  · cases found
  · split at found
    · cases found
    · exact normalize_of_lookupPath _ _ _ _ _ _ (Path.normalize_normalize _) found

end FirmwareWorkspace.Resolver
