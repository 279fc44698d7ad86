import FirmwareWorkspace.Proofs.FileSystem.Changes
import FirmwareWorkspace.Proofs.Path.Ancestor
import FirmwareWorkspace.Resolver

/-!
# What a request does to a resolver

A request is answered by its text alone, by a directory that the resolver knows, or by a
search of the whole workspace. Only the last one changes what the resolver knows: it learns a
directory or notes a miss. `Resolver.Asks` says all that can happen, and the statements about
whole sequences of requests are read off it.

A search that succeeds always teaches a directory that was not known before, and from that
directory the reference leads to the answer of the search.
-/
namespace FirmwareWorkspace

/-- A reference to look up: its text, the file that makes it, and whether the whole workspace
may be searched for it. -/
structure Request where
  text : String
  referrer : Option Path
  global : Bool
  deriving DecidableEq, Repr

namespace Request

/-- The path that the text spells, without the blanks around it. -/
def path (request : Request) : Path :=
  ⟨.ofList (Chars.trim request.text.toList)⟩

/-- The path in the form in which it is looked for. -/
def reference (request : Request) : Path :=
  request.path.normalize

/-- The answer to a request that no directory has to be known for: its text is refused, or it
spells an absolute path. -/
def direct? (request : Request) (system : FileSystem) : Option Resolution :=
  let chars := Chars.trim request.text.toList
  if chars = [] ∨ chars.any Resolver.isForbidden then some .rejected
  else
    match Resolver.variableIn? chars with
    | some name => some (.unresolved (.ofList name))
    | none =>
      if request.reference.isAbsolute then
        some (if system.contains request.reference then .found request.reference else .notFound)
      else none

end Request

namespace Resolver

/-- Look up a reference, in the known directories only or in the whole workspace. -/
def ask (system : FileSystem) (resolver : Resolver) (request : Request) : Resolution × Resolver :=
  if request.global then resolver.resolve system request.text request.referrer
  else resolver.resolveLocal system request.text request.referrer

/-- The directories in which a relative reference is looked for before any search. -/
def directories (resolver : Resolver) (referrer : Option Path) : List Path :=
  (referrer.bind Path.parent?).toList ++ resolver.workspaceRoot :: resolver.searchPaths

/-- The answer of the known directories to a relative reference. -/
def placed? (resolver : Resolver) (system : FileSystem) (request : Request) : Option Path :=
  (resolver.candidates request.reference request.referrer).find? system.contains

/-- The answer of a search of the whole workspace. -/
def sought? (resolver : Resolver) (system : FileSystem) (reference : Path) : Option Path :=
  reference.fileName?.bind (resolver.searchWorkspace system reference)

section Ask

variable (resolver : Resolver) (system : FileSystem) (request : Request)

theorem ask_eq_lookup : resolver.ask system request =
    resolver.lookup system request.text request.referrer request.global := by
  rw [ask, resolve, resolveLocal]
  cases request.global <;> rfl

theorem ask_of_direct (answer : Resolution) (given : request.direct? system = some answer) :
    ∃ unresolved, resolver.ask system request =
      (answer, { resolver with unresolved := unresolved }) := by
  rw [ask_eq_lookup, lookup]
  unfold Request.direct? at given
  dsimp only at given ⊢
  by_cases refused : Chars.trim request.text.toList = [] ∨
      (Chars.trim request.text.toList).any isForbidden
  · rw [if_pos refused] at given ⊢
    cases given
    exact ⟨resolver.unresolved, rfl⟩
  · rw [if_neg refused] at given ⊢
    cases found : variableIn? (Chars.trim request.text.toList) with
    | some name =>
      rw [found] at given
      cases given
      exact ⟨_, rfl⟩
    | none =>
      rw [found] at given
      dsimp only at given
      split at given
      next absolute =>
        cases given
        exact ⟨resolver.unresolved, if_pos absolute⟩
      · cases given

theorem contains_of_direct (path : Path) (given : request.direct? system = some (.found path)) :
    system.contains path = true := by
  unfold Request.direct? at given
  dsimp only at given
  split at given
  · cases given
  · split at given
    · cases given
    · split at given
      · split at given
        next there =>
          rw [← Resolution.found.inj (Option.some.inj given)]
          exact there
        · cases given
      · cases given

/-- A request that is not answered by its text spells a relative path. -/
theorem accepted_of_relative (relative : request.direct? system = none) :
    ¬(Chars.trim request.text.toList = [] ∨ (Chars.trim request.text.toList).any isForbidden) ∧
      variableIn? (Chars.trim request.text.toList) = none ∧
      request.reference.isAbsolute = false := by
  unfold Request.direct? at relative
  dsimp only at relative
  split at relative
  · cases relative
  next accepted =>
    split at relative
    · cases relative
    next plain =>
      split at relative
      · cases relative
      next below => exact ⟨accepted, plain, Bool.not_eq_true _ ▸ below⟩

theorem ask_of_relative (relative : request.direct? system = none) :
    resolver.ask system request =
      match resolver.placed? system request with
      | some path => (.found path, resolver)
      | none =>
        if request.global then resolver.searchGlobally system request.reference
        else (.notFound, resolver) := by
  have ⟨accepted, plain, below⟩ := accepted_of_relative system request relative
  rw [ask_eq_lookup, lookup, if_neg accepted, plain]
  exact if_neg (Bool.not_eq_true _ ▸ below)

theorem candidates_eq (reference : Path) (referrer : Option Path) :
    resolver.candidates reference referrer =
      (resolver.directories referrer).map fun directory => (directory.join reference).normalize :=
  rfl

/-- No known directory holds a reference that they do not answer. -/
theorem contains_of_nowhere (nowhere : resolver.placed? system request = none) (directory : Path)
    (known : directory ∈ resolver.directories request.referrer) :
    system.contains (directory.join request.reference).normalize = false := by
  rw [placed?, candidates_eq, List.find?_eq_none] at nowhere
  exact Bool.not_eq_true _ ▸ nowhere _ (List.mem_map_of_mem known)

end Ask

/-! ### Searches -/

/-- A search finds a file that ends with the reference. -/
theorem ends_of_sought (memory : MemoryFiles) (normal : memory.IsNormal) (resolver : Resolver)
    (reference path : Path) (found : resolver.sought? (.memory memory) reference = some path) :
    reference.parts ≠ [] ∧ path.normalize = path ∧ memory.contains path = true ∧
      path.endsWith reference = true := by
  obtain ⟨name, named, searched⟩ := Option.bind_eq_some_iff.mp found
  obtain ⟨file, listed, same⟩ := List.mem_map.mp (List.mem_of_find?_eq_some searched)
  have inside := memory.mem_paths_of_search _ file name listed
  -- Files are kept under normal forms, so normalizing the file changes nothing.
  rw [normal file inside] at same
  subst same
  rw [searchWorkspace] at searched
  have ends := List.find?_some searched
  refine ⟨fun empty => ?_, normal file inside, memory.contains_of_mem_paths normal file inside,
    ends⟩
  rw [Path.fileName?, empty] at named
  cases named

/-- A request that only a search can answer: it may search, no known directory answers it, and
its reference was not missed before. -/
structure Pending (system : FileSystem) (resolver : Resolver) (request : Request) : Prop where
  relative : request.direct? system = none
  nowhere : resolver.placed? system request = none
  global : request.global = true
  new : request.reference ∉ resolver.misses

/-- Everything that a request can do to a resolver. -/
inductive Asks (system : FileSystem) (resolver : Resolver) (request : Request) :
    Resolution → Resolver → Prop
  | direct (answer : Resolution) (unresolved : List UnresolvedVariable)
      (given : request.direct? system = some answer) :
      Asks system resolver request answer { resolver with unresolved := unresolved }
  | placed (path : Path) (relative : request.direct? system = none)
      (first : resolver.placed? system request = some path) :
      Asks system resolver request (.found path) resolver
  /-- No directory answers, and there is no search. -/
  | unsought (relative : request.direct? system = none)
      (nowhere : resolver.placed? system request = none)
      (idle : request.global = false ∨ request.reference ∈ resolver.misses) :
      Asks system resolver request .notFound resolver
  /-- A reference that no file can have is missed without a search. -/
  | nameless (pending : Pending system resolver request)
      (unnamed : request.reference.fileName? = none) :
      Asks system resolver request .notFound
        { resolver with misses := request.reference :: resolver.misses }
  | missed (pending : Pending system resolver request)
      (named : request.reference.fileName? ≠ none)
      (nothing : resolver.sought? system request.reference = none) :
      Asks system resolver request .notFound
        { resolver with
          misses := request.reference :: resolver.misses
          searches := resolver.searches + 1 }
  /-- The directory from which the reference leads to the answer becomes known. -/
  | learned (pending : Pending system resolver request) (path root : Path)
      (found : resolver.sought? system request.reference = some path)
      (above : root = path.ancestor request.reference.parts.length)
      (normal : root.normalize = root)
      (fresh : root ∉ resolver.workspaceRoot :: resolver.searchPaths)
      (leads : (root.join request.reference).normalize = path)
      (there : system.contains path = true) :
      Asks system resolver request (.found path)
        { resolver with
          learnedRoots := resolver.learnedRoots ++ [root]
          searches := resolver.searches + 1 }

theorem asks_of_pending (memory : MemoryFiles) (normal : memory.IsNormal) (resolver : Resolver)
    (request : Request) (pending : Pending (.memory memory) resolver request) :
    Asks (.memory memory) resolver request
      (resolver.searchGlobally (.memory memory) request.reference).1
      (resolver.searchGlobally (.memory memory) request.reference).2 := by
  rw [searchGlobally, if_neg pending.new]
  cases named : request.reference.fileName? with
  | none => exact .nameless pending named
  | some name =>
    dsimp only
    have sought : resolver.sought? (.memory memory) request.reference =
        resolver.searchWorkspace (.memory memory) request.reference name := by
      rw [sought?, named, Option.bind_some]
    cases found : resolver.searchWorkspace (.memory memory) request.reference name with
    | none =>
      have someName : request.reference.fileName? ≠ none := by
        rw [named]
        exact Option.some_ne_none name
      exact .missed pending someName (sought.trans found)
    | some path =>
      rw [found] at sought
      obtain ⟨someName, spelled, there, ends⟩ := ends_of_sought memory normal _ _ _ sought
      have ⟨back, rootNormal⟩ := Path.join_ancestor path request.reference spelled
        (Path.normalize_normalize _) (accepted_of_relative _ _ pending.relative).2.2 someName ends
      dsimp only
      generalize above : path.ancestor request.reference.parts.length = root at back rootNormal ⊢
      have leads : (root.join request.reference).normalize = path := by rw [back, spelled]
      -- A known directory would have answered the request.
      have fresh : root ∉ resolver.workspaceRoot :: resolver.searchPaths := by
        intro known
        have absent := contains_of_nowhere resolver _ request pending.nowhere _
          (List.mem_append_right _ known)
        rw [leads] at absent
        exact absurd (there.symm.trans absent) Bool.noConfusion
      have learns : { resolver with searches := resolver.searches + 1 }.learn root =
          { resolver with
            learnedRoots := resolver.learnedRoots ++ [root]
            searches := resolver.searches + 1 } := if_neg fresh
      rw [learns]
      exact .learned pending path root sought above.symm rootNormal fresh leads there

theorem asks_ask (memory : MemoryFiles) (normal : memory.IsNormal) (resolver : Resolver)
    (request : Request) :
    Asks (.memory memory) resolver request (resolver.ask (.memory memory) request).1
      (resolver.ask (.memory memory) request).2 := by
  cases direct : request.direct? (.memory memory) with
  | some answer =>
    obtain ⟨unresolved, asked⟩ := ask_of_direct resolver (.memory memory) request answer direct
    rw [asked]
    exact .direct answer unresolved direct
  | none =>
    rw [ask_of_relative resolver _ request direct]
    cases place : resolver.placed? (.memory memory) request with
    | some path => exact .placed path direct place
    | none =>
      dsimp only
      by_cases global : request.global = true
      · rw [if_pos global]
        by_cases known : request.reference ∈ resolver.misses
        · rw [searchGlobally, if_pos known]
          exact .unsought direct place (.inr known)
        · exact asks_of_pending memory normal resolver request ⟨direct, place, global, known⟩
      · rw [if_neg global]
        exact .unsought direct place (.inl (Bool.not_eq_true _ ▸ global))

/-! ### What stays known -/

/-- Everything that a resolver knows is known to another one, and directories keep their
order. -/
structure Extends (resolver next : Resolver) : Prop where
  workspaceRoot : next.workspaceRoot = resolver.workspaceRoot
  packagePaths : next.packagePaths = resolver.packagePaths
  learnedRoots : resolver.learnedRoots <+: next.learnedRoots
  misses : resolver.misses ⊆ next.misses

theorem Extends.refl (resolver : Resolver) : resolver.Extends resolver :=
  ⟨rfl, rfl, List.prefix_refl _, List.Subset.refl _⟩

theorem Extends.trans {first second third : Resolver} (left : first.Extends second)
    (right : second.Extends third) : first.Extends third where
  workspaceRoot := right.workspaceRoot.trans left.workspaceRoot
  packagePaths := right.packagePaths.trans left.packagePaths
  learnedRoots := left.learnedRoots.trans right.learnedRoots
  misses := List.Subset.trans left.misses right.misses

theorem Asks.grown {system : FileSystem} {resolver next : Resolver} {request : Request}
    {answer : Resolution} (asks : Asks system resolver request answer next) :
    resolver.Extends next := by
  cases asks with
  | direct => exact ⟨rfl, rfl, List.prefix_refl _, List.Subset.refl _⟩
  | placed | unsought => exact .refl resolver
  | nameless | missed => exact ⟨rfl, rfl, List.prefix_refl _, List.subset_cons_self _ _⟩
  | learned => exact ⟨rfl, rfl, List.prefix_append _ _, List.Subset.refl _⟩

/-- New directories come last, so what the known directories answer stays the answer. -/
theorem Extends.placed {resolver next : Resolver} (grown : resolver.Extends next)
    (system : FileSystem) (request : Request) (more : List Path)
    (added : resolver.learnedRoots ++ more = next.learnedRoots) :
    next.placed? system request = (resolver.placed? system request).or
      ((more.map fun root => (root.join request.reference).normalize).find? system.contains) := by
  have directories : next.directories request.referrer =
      resolver.directories request.referrer ++ more := by
    simp only [directories, searchPaths, grown.workspaceRoot, grown.packagePaths, ← added,
      List.append_assoc, List.cons_append]
  rw [placed?, placed?, candidates_eq, candidates_eq, directories, List.map_append,
    List.find?_append]

/-- What holds of a resolver that has answered requests only. -/
structure IsSound (system : FileSystem) (resolver : Resolver) : Prop where
  normal : ∀ root ∈ resolver.workspaceRoot :: resolver.searchPaths, root.normalize = root
  distinct : resolver.learnedRoots.Nodup
  apart : ∀ root ∈ resolver.learnedRoots, root ∉ resolver.workspaceRoot :: resolver.packagePaths
  missed : ∀ reference ∈ resolver.misses, resolver.sought? system reference = none

theorem isSound_new (system : FileSystem) (workspaceRoot : Path) (packagePaths : List Path) :
    (new workspaceRoot packagePaths).IsSound system where
  normal root known := by
    rcases List.mem_cons.mp known with rfl | known
    · exact Path.normalize_normalize _
    · rw [searchPaths, new, List.append_nil] at known
      obtain ⟨path, _, rfl⟩ := List.mem_map.mp known
      exact Path.normalize_normalize _
  distinct := List.nodup_nil
  apart _ learned := nomatch learned
  missed _ member := nomatch member

theorem Asks.isSound {system : FileSystem} {resolver next : Resolver} {request : Request}
    {answer : Resolution} (asks : Asks system resolver request answer next)
    (sound : resolver.IsSound system) : next.IsSound system := by
  cases asks with
  | direct | placed | unsought => exact ⟨sound.normal, sound.distinct, sound.apart, sound.missed⟩
  | nameless pending unnamed =>
    refine ⟨sound.normal, sound.distinct, sound.apart, fun reference member => ?_⟩
    rcases List.mem_cons.mp member with rfl | earlier
    · exact Option.bind_eq_none_iff.mpr fun name named => nomatch unnamed.symm.trans named
    · exact sound.missed reference earlier
  | missed pending named nothing =>
    refine ⟨sound.normal, sound.distinct, sound.apart, fun reference member => ?_⟩
    rcases List.mem_cons.mp member with rfl | earlier
    · exact nothing
    · exact sound.missed reference earlier
  | learned pending path root found above normal fresh leads there =>
    -- A root is learned only if it is no search path yet.
    have unlearned : root ∉ resolver.learnedRoots := fun learned =>
      fresh (.tail _ (List.mem_append_right _ learned))
    refine ⟨fun other known => ?_, ?_, fun other learned => ?_, sound.missed⟩
    · rw [searchPaths, ← List.append_assoc, ← List.cons_append] at known
      rcases List.mem_append.mp known with earlier | new
      · exact sound.normal other earlier
      · rw [List.mem_singleton.mp new]
        exact normal
    · refine List.nodup_append.mpr ⟨sound.distinct, List.pairwise_singleton _ root, ?_⟩
      rintro other learned _ new rfl
      exact unlearned (List.mem_singleton.mp new ▸ learned)
    · rcases List.mem_append.mp learned with earlier | new
      · exact sound.apart other earlier
      · rw [List.mem_singleton.mp new]
        exact fun given => fresh (List.mem_append_left resolver.learnedRoots given)

/-! ### Sequences of requests -/

/-- The resolver after requests, answered one by one. -/
def after (answer : Resolver → Request → Resolution × Resolver) (resolver : Resolver)
    (requests : List Request) : Resolver :=
  requests.foldl (fun resolver request => (answer resolver request).2) resolver

def answers (answer : Resolver → Request → Resolution × Resolver) (resolver : Resolver) :
    List Request → List Resolution
  | [] => []
  | request :: rest =>
    (answer resolver request).1 :: answers answer (answer resolver request).2 rest

theorem after_append (answer : Resolver → Request → Resolution × Resolver) (resolver : Resolver)
    (earlier later : List Request) :
    after answer resolver (earlier ++ later) = after answer (after answer resolver earlier) later :=
  List.foldl_append

section Sequence

variable (memory : MemoryFiles) (normal : memory.IsNormal)
include normal

theorem extends_after (resolver : Resolver) (requests : List Request) :
    resolver.Extends (after (ask (.memory memory)) resolver requests) := by
  induction requests generalizing resolver with
  | nil => exact .refl resolver
  | cons request rest ih => exact (asks_ask memory normal resolver request).grown.trans (ih _)

theorem isSound_after (resolver : Resolver) (sound : resolver.IsSound (.memory memory))
    (requests : List Request) :
    (after (ask (.memory memory)) resolver requests).IsSound (.memory memory) := by
  induction requests generalizing resolver with
  | nil => exact sound
  | cons request rest ih => exact ih _ ((asks_ask memory normal resolver request).isSound sound)

end Sequence

end Resolver

end FirmwareWorkspace
