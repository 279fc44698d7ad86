import FirmwareWorkspace.Proofs.Path.Joining
import FirmwareWorkspace.Proofs.Resolver.Requests

/-!
# The file that a reference names

Seen from the directory of the referring file, a relative reference names one place. A lookup
first tries the place to which the normal form of the reference leads. The two are the same
exactly if at most one parent step of the reference leads above its beginning: of two such steps
the normal form keeps none, so that the lookup goes on in the directory itself.
-/
namespace FirmwareWorkspace.Resolver

/-- A reference is tried first in the directory of the referring file. -/
theorem head_candidates (resolver : Resolver) (reference file directory : Path)
    (parent : file.parent? = some directory) :
    (resolver.candidates reference (some file)).head? =
      some (directory.join reference).normalize := by
  simp only [candidates, Option.bind_some, parent, Option.toList_some, List.cons_append,
    List.map_cons, List.head?_cons]

/-- The first place that is tried answers if it holds something. -/
theorem ask_of_head (resolver : Resolver) (system : FileSystem) (request : Request) (place : Path)
    (relative : request.direct? system = none)
    (first : (resolver.candidates request.reference request.referrer).head? = some place)
    (there : system.contains place = true) :
    resolver.ask system request = (.found place, resolver) := by
  have placed : resolver.placed? system request = some place := by
    obtain ⟨others, tried⟩ := List.head?_eq_some_iff.mp first
    rw [placed?, tried, List.find?_cons_of_pos there]
  rw [ask_of_relative resolver system request relative, placed]

/-- From a directory that is deep enough, normalizing a relative path first keeps the place that
it names iff at most one parent step of the path leads above its beginning. For the directory of a
referring file, the place that a reference names is then the first that is tried, and in no other
case. -/
theorem tries_named_iff (directory : Path) (normal : directory.normalize = directory) :
    (∀ path : Path, path.normalize.isAbsolute = false →
      path.unified.parts.count .up ≤ directory.normalNames.length →
        ((directory.join path.normalize).normalize = (directory.join path).normalize ↔
          path.climbs ≤ 1)) ∧
      ∀ (resolver : Resolver) (system : FileSystem) (request : Request) (file : Path),
        request.referrer = some file → file.parent? = some directory →
        request.direct? system = none →
        request.path.unified.parts.count .up ≤ directory.normalNames.length →
          ((resolver.candidates request.reference request.referrer).head? =
            some (directory.join request.path).normalize ↔ request.path.climbs ≤ 1) ∧
          (request.path.climbs ≤ 1 → system.contains (directory.join request.path).normalize →
            resolver.ask system request =
              (.found (directory.join request.path).normalize, resolver)) := by
  have kept (path : Path) (relative : path.normalize.isAbsolute = false)
      (room : path.unified.parts.count .up ≤ directory.normalNames.length) :
      (directory.join path.normalize).normalize = (directory.join path).normalize ↔
        path.climbs ≤ 1 :=
    Path.normalize_join_normalize_iff directory path normal relative
      (Nat.le_trans path.climbs_le_count room)
  refine ⟨kept, fun resolver system request file referred parent relative room => ?_⟩
  have below := (accepted_of_relative system request relative).2.2
  have first : (resolver.candidates request.reference request.referrer).head? =
      some (directory.join request.path).normalize ↔ request.path.climbs ≤ 1 := by
    rw [referred, head_candidates resolver _ file directory parent, Option.some_inj]
    exact kept request.path below room
  exact ⟨first, fun few there =>
    ask_of_head resolver system request _ relative (first.mpr few) there⟩

/-- From `/ws/A/B` the reference `../../X.inc` names `/ws/X.inc`, which is there; what is tried
first and found is `/ws/A/B/X.inc`. -/
theorem twoParents_not_named :
    let system := FileSystem.memory (.ofList [(⟨"/ws/X.inc"⟩, ""), (⟨"/ws/A/B/X.inc"⟩, "")])
    let request : Request := ⟨"../../X.inc", some ⟨"/ws/A/B/P.dsc"⟩, true⟩
    (Path.join ⟨"/ws/A/B"⟩ request.path).normalize = ⟨"/ws/X.inc"⟩ ∧
      system.contains ⟨"/ws/X.inc"⟩ = true ∧
      ((new ⟨"/ws"⟩ []).candidates request.reference request.referrer).head? ≠
        some ⟨"/ws/X.inc"⟩ ∧
      ((new ⟨"/ws"⟩ []).ask system request).1 = .found ⟨"/ws/A/B/X.inc"⟩ := by
  intro system request
  have named : (Path.join ⟨"/ws/A/B"⟩ request.path).normalize = ⟨"/ws/X.inc"⟩ := by
    decide +kernel
  refine ⟨named, by decide +kernel, fun first => ?_, by decide +kernel⟩
  have ⟨exactly, _⟩ := (tries_named_iff ⟨"/ws/A/B"⟩ (by decide +kernel)).2 (new ⟨"/ws"⟩ []) system
    request ⟨"/ws/A/B/P.dsc"⟩ rfl (by decide +kernel) (by decide +kernel) (by decide +kernel)
  have climbs := exactly.mp (first.trans (congrArg some named.symm))
  exact absurd climbs (by decide +kernel)

end FirmwareWorkspace.Resolver
