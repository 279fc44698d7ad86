import FirmwareWorkspace.Proofs.Path.Joining
import FirmwareWorkspace.Proofs.Resolver.Found
import FirmwareWorkspace.Proofs.Resolver.Searching

/-!
# Answers stay

Directories are learned while lookups go on, but they are learned last and only for what no
other directory holds. So a file that was found once is found again, by whatever kind of lookup.

A learned directory also answers every reference that leads from it to a file, without another
search. The reference is normalized before it is joined to the directory: with two parent steps
above its beginning it may then lead elsewhere, and the workspace is searched again.
-/
namespace FirmwareWorkspace.Resolver

/-- Lookups are sound and stable over a sequence of requests. `spelling` says how a request
spells the path that it asks for. -/
structure IsSteady (system : FileSystem) (spelling : Request → Path) (resolver : Resolver)
    (requests : List Request) : Prop where
  /-- What is found is there, and is spelled in its normal form. -/
  found : ∀ earlier request later path, requests = earlier ++ request :: later →
    ((after (ask system) resolver earlier).ask system request).1 = .found path →
      path.normalize = path ∧ system.contains path = true
  /-- What was found is found again for the same text from the same file. -/
  stable : ∀ earlier request between global later path,
    requests = earlier ++ request :: between ++ { request with global := global } :: later →
    ((after (ask system) resolver earlier).ask system request).1 = .found path →
      ((after (ask system) resolver (earlier ++ request :: between)).ask system
        { request with global := global }).1 = .found path
  appended : ∀ earlier later, requests = earlier ++ later →
    (after (ask system) resolver earlier).learnedRoots <+:
      (after (ask system) resolver requests).learnedRoots
  distinct : (after (ask system) resolver requests).learnedRoots.Pairwise
    fun root other => root.same other = false
  apart : ∀ root ∈ (after (ask system) resolver requests).learnedRoots,
    ∀ known ∈ resolver.workspaceRoot :: resolver.packagePaths, root.same known = false
  /-- What a learned directory holds is not searched for. -/
  quiet : ∀ earlier request later root, requests = earlier ++ request :: later →
    root ∈ (after (ask system) resolver earlier).learnedRoots →
    system.contains (root.join (spelling request)) = true →
      ((after (ask system) resolver earlier).ask system request).2.searches =
        (after (ask system) resolver earlier).searches

/-! ### Known answers -/

/-- The answer to a request without any search. -/
def known? (resolver : Resolver) (system : FileSystem) (request : Request) : Option Resolution :=
  (request.direct? system).or ((resolver.placed? system request).map .found)

theorem known_iff (resolver : Resolver) (system : FileSystem) (request : Request)
    (answer : Resolution) : resolver.known? system request = some answer ↔
      request.direct? system = some answer ∨ request.direct? system = none ∧
        ∃ path, resolver.placed? system request = some path ∧ .found path = answer := by
  rw [known?, Option.or_eq_some_iff, Option.map_eq_some_iff]

theorem ask_of_known (system : FileSystem) (resolver : Resolver) (request : Request)
    (answer : Resolution) (known : resolver.known? system request = some answer) :
    (resolver.ask system request).1 = answer := by
  rcases (known_iff ..).mp known with direct | ⟨relative, path, first, rfl⟩
  · obtain ⟨unresolved, asked⟩ := ask_of_direct resolver system request answer direct
    rw [asked]
  · rw [ask_of_relative resolver system request relative, first]

theorem Extends.known {resolver next : Resolver} (grown : resolver.Extends next)
    (system : FileSystem) (request : Request) (answer : Resolution)
    (known : resolver.known? system request = some answer) :
    next.known? system request = some answer := by
  rcases (known_iff ..).mp known with direct | ⟨relative, path, first, rfl⟩
  · exact (known_iff ..).mpr (.inl direct)
  · obtain ⟨more, added⟩ := grown.learnedRoots
    refine (known_iff ..).mpr (.inr ⟨relative, path, ?_, rfl⟩)
    rw [grown.placed system request more added, first, Option.some_or]

/-- What is found is there, and is known from then on. -/
theorem Asks.known {system : FileSystem} {resolver next : Resolver} {request : Request}
    {path : Path} (asks : Asks system resolver request (.found path) next) :
    system.contains path = true ∧ next.known? system request = some (.found path) := by
  have grown := asks.grown
  cases asks with
  | direct _ unresolved given =>
    exact ⟨contains_of_direct system request path given, (known_iff ..).mpr (.inl given)⟩
  | placed _ relative first =>
    exact ⟨List.find?_some first, (known_iff ..).mpr (.inr ⟨relative, path, first, rfl⟩)⟩
  | learned pending _ root found above normal fresh leads there =>
    refine ⟨there, (known_iff ..).mpr (.inr ⟨pending.relative, path, ?_, rfl⟩)⟩
    -- No other directory holds the reference, so the new one answers.
    rw [grown.placed system request [root] rfl, pending.nowhere, Option.none_or, List.map_singleton,
      leads, List.find?_cons_of_pos there]

/-! ### Sequences of requests -/

/-- All directories are spelled in their normal form, so different ones have different parts. -/
theorem IsSound.same_eq_false {system : FileSystem} {resolver : Resolver}
    (sound : resolver.IsSound system) (root other : Path) (learned : root ∈ resolver.learnedRoots)
    (known : other ∈ resolver.workspaceRoot :: resolver.searchPaths) (different : root ≠ other) :
    root.same other = false := by
  refine Bool.eq_false_iff.mpr fun same => different ?_
  have normal := sound.normal root (.tail _ (List.mem_append_right _ learned))
  exact Path.eq_of_same root other normal (sound.normal other known) same

section Sequence

variable (memory : MemoryFiles) (normal : memory.IsNormal)
include normal

theorem contains_of_found (resolver : Resolver) (request : Request) (path : Path)
    (found : (resolver.ask (.memory memory) request).1 = .found path) :
    path.normalize = path ∧ (FileSystem.memory memory).contains path = true := by
  have asks := asks_ask memory normal resolver request
  rw [found] at asks
  rw [ask_eq_lookup] at found
  exact ⟨normalize_of_found _ _ _ _ _ path found, asks.known.1⟩

/-- A file that is found is found again, whatever is asked for in between. -/
theorem found_again (resolver : Resolver) (request : Request) (between : List Request)
    (global : Bool) (path : Path)
    (found : (resolver.ask (.memory memory) request).1 = .found path) :
    ((after (ask (.memory memory)) resolver (request :: between)).ask (.memory memory)
      { request with global := global }).1 = .found path := by
  have asks := asks_ask memory normal resolver request
  rw [found] at asks
  have grown := extends_after memory normal (resolver.ask (.memory memory) request).2 between
  exact ask_of_known _ _ { request with global := global } _ (grown.known _ request _ asks.known.2)

/-- Lookups are steady, unless a reference is searched for that leads from a learned directory
to a file. -/
theorem isSteady_iff (spelling : Request → Path) (resolver : Resolver)
    (sound : resolver.IsSound (.memory memory)) (requests : List Request) :
    IsSteady (.memory memory) spelling resolver requests ↔
      ∀ earlier request later root, requests = earlier ++ request :: later →
        root ∈ (after (ask (.memory memory)) resolver earlier).learnedRoots →
        (FileSystem.memory memory).contains (root.join (spelling request)) = true →
          ¬Seeks (.memory memory) (after (ask (.memory memory)) resolver earlier) request := by
  constructor
  · intro steady earlier request later root split learned held seeks
    have idle := steady.quiet earlier request later root split learned held
    rcases (asks_ask memory normal _ request).searches with ⟨other, _⟩ | ⟨_, once, _⟩
    · exact other seeks
    · omega
  · intro unsought
    -- All conditions but the last hold in any case, by what a sound resolver keeps.
    have last := isSound_after memory normal resolver sound requests
    have grown := extends_after memory normal resolver requests
    constructor
    case found =>
      intro earlier request later path _ found
      exact contains_of_found memory normal _ request path found
    case stable =>
      intro earlier request between global later path _ found
      rw [after_append]
      exact found_again memory normal _ request between global path found
    case appended =>
      rintro earlier later rfl
      rw [after_append]
      exact (extends_after memory normal _ later).learnedRoots
    case distinct =>
      refine last.distinct.imp_of_mem fun {root other} learned learnedToo different => ?_
      exact last.same_eq_false root other learned
        (.tail _ (List.mem_append_right _ learnedToo)) different
    case apart =>
      intro root learned known given
      rw [← grown.workspaceRoot, ← grown.packagePaths] at given
      refine last.same_eq_false root known learned (List.mem_append_left _ given) ?_
      rintro rfl
      exact last.apart root learned given
    case quiet =>
      intro earlier request later root split learned held
      rcases (asks_ask memory normal _ request).searches with ⟨_, idle⟩ | ⟨seeks, _⟩
      · exact idle
      · exact absurd seeks (unsought earlier request later root split learned held)

/-- Lookups are steady if references lead from learned directories to where their normal forms
lead. -/
theorem isSteady_of_leads (spelling : Request → Path) (resolver : Resolver)
    (sound : resolver.IsSound (.memory memory)) (requests : List Request)
    (leads : ∀ request ∈ requests, ∀ root : Path, root.normalize = root →
      request.reference.isAbsolute = false →
        (root.join request.reference).normalize = (root.join (spelling request)).normalize) :
    IsSteady (.memory memory) spelling resolver requests := by
  refine (isSteady_iff memory normal spelling resolver sound requests).mpr ?_
  -- The normal form of such a reference leads to the same file, which settles it.
  rintro earlier request later root rfl learned held ⟨pending, _⟩
  have rootNormal := (isSound_after memory normal resolver sound earlier).normal root
    (.tail _ (List.mem_append_right _ learned))
  refine absurd (.inr ⟨root, learned, ?_⟩) pending.unsettled
  rw [leads request (List.mem_append_right _ (.head _)) root rootNormal
    (accepted_of_relative _ request pending.relative).2.2]
  exact (memory.contains_normalize _).trans held

end Sequence

/-- Lookups are sound and stable: what is found is there and is found again, learned directories
are new and stay, and a reference whose normal form leads from one of them to a file is not
searched for. If the text of a reference leads to a file and its normal form elsewhere, there may
be a search; then at least two parent steps of the text lead above its beginning. -/
theorem lookup_isSteady_iff (workspaceRoot : Path) (packagePaths : List Path)
    (changes : List FileChange) (requests : List Request) :
    let system := FileSystem.memory (.ofChanges changes)
    let fresh := new workspaceRoot packagePaths
    IsSteady system Request.reference fresh requests ∧
      (IsSteady system Request.path fresh requests ↔
        ∀ earlier request later root, requests = earlier ++ request :: later →
          root ∈ (after (ask system) fresh earlier).learnedRoots →
          system.contains (root.join request.path) = true →
            ¬Seeks system (after (ask system) fresh earlier) request) ∧
      ((∀ request ∈ requests, request.path.climbs ≤ 1) →
        IsSteady system Request.path fresh requests) := by
  intro system fresh
  have normal := MemoryFiles.isNormal_ofChanges changes
  have sound : fresh.IsSound system := isSound_new system workspaceRoot packagePaths
  refine ⟨?_, isSteady_iff _ normal _ fresh sound requests, fun few => ?_⟩
  · exact isSteady_of_leads _ normal _ fresh sound requests fun _ _ _ _ _ => rfl
  · refine isSteady_of_leads _ normal _ fresh sound requests ?_
    intro request member root rootNormal relative
    exact Path.normalize_join_normalize root request.path rootNormal relative (few request member)

/-- From the learned directory `/ws/A/B/D` the second reference leads to `Baz.h`, but its normal
form is `B/D/Baz.h`, which is searched for. -/
theorem twoParents_not_isSteady :
    ¬IsSteady (.memory (.ofChanges [.insert ⟨"/ws/A/B/D/Bar.h"⟩ "",
        .insert ⟨"/ws/A/B/D/Baz.h"⟩ ""]))
      Request.path (new ⟨"/ws"⟩ [])
      [⟨"Bar.h", none, true⟩, ⟨"../../B/D/Baz.h", none, true⟩] := by
  intro steady
  have unsought := (lookup_isSteady_iff ⟨"/ws"⟩ [] _ _).2.1.mp steady [⟨"Bar.h", none, true⟩] _ []
    ⟨"/ws/A/B/D"⟩ rfl
  -- The first search learned one directory.
  have reached : after (ask (.memory (.ofChanges [.insert ⟨"/ws/A/B/D/Bar.h"⟩ "",
      .insert ⟨"/ws/A/B/D/Baz.h"⟩ ""]))) (new ⟨"/ws"⟩ []) [⟨"Bar.h", none, true⟩] =
        ⟨⟨"/ws"⟩, [], [⟨"/ws/A/B/D"⟩], [], [], 1⟩ := by decide +kernel
  rw [reached] at unsought
  refine unsought (by decide) (by decide +kernel) ⟨⟨?_, ?_, rfl, ?_⟩, ?_⟩
  all_goals decide +kernel

end FirmwareWorkspace.Resolver
