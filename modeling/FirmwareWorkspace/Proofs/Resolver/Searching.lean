import FirmwareWorkspace.Proofs.Resolver.Requests

/-!
# Searches are made once

A resolver remembers the references that a search missed, and learns a directory from each
search that succeeds. What it remembers makes no difference to any answer: files do not change
between requests, so what was missed once would be missed again. And it keeps a reference from
being searched for a second time, whichever file refers to it.
-/
namespace FirmwareWorkspace.Resolver

/-- The resolver without what it remembers about misses. -/
def forget (resolver : Resolver) : Resolver :=
  { resolver with misses := [] }

/-- Look up a reference as if none had been missed before. -/
def askAfresh (system : FileSystem) (resolver : Resolver) (request : Request) :
    Resolution × Resolver :=
  resolver.forget.ask system request

/-- The references that the workspace is searched for, once for each search. -/
def searched (system : FileSystem) (resolver : Resolver) : List Request → List Path
  | [] => []
  | request :: rest =>
    let next := (resolver.ask system request).2
    List.replicate (next.searches - resolver.searches) request.reference ++
      searched system next rest

/-! ### Misses make no difference -/

/-- The answer of a resolver that searches whenever no directory answers, and the directories
that it learns. -/
def plain (resolver : Resolver) (system : FileSystem) (request : Request) :
    Resolution × List Path :=
  match request.direct? system with
  | some answer => (answer, [])
  | none =>
    match resolver.placed? system request with
    | some path => (.found path, [])
    | none =>
      match if request.global then resolver.sought? system request.reference else none with
      | some path => (.found path, [path.ancestor request.reference.parts.length])
      | none => (.notFound, [])

theorem Asks.plain {system : FileSystem} {resolver next : Resolver} {request : Request}
    {answer : Resolution} (asks : Asks system resolver request answer next)
    (sound : resolver.IsSound system) :
    answer = (resolver.plain system request).1 ∧
      next.learnedRoots = resolver.learnedRoots ++ (resolver.plain system request).2 := by
  cases asks with
  | direct answer unresolved given => simp [Resolver.plain, given]
  | placed path relative first => simp [Resolver.plain, relative, first]
  | unsought relative nowhere idle =>
    -- A remembered miss stands for a search that would fail again.
    rcases idle with confined | known
    · simp [Resolver.plain, relative, nowhere, confined]
    · simp [Resolver.plain, relative, nowhere, sound.missed _ known]
  | nameless pending unnamed =>
    have nothing : resolver.sought? system request.reference = none := by
      rw [sought?, unnamed, Option.bind_none]
    simp [Resolver.plain, pending.relative, pending.nowhere, nothing]
  | missed pending named nothing =>
    simp [Resolver.plain, pending.relative, pending.nowhere, nothing]
  | learned pending path root found above =>
    simp [Resolver.plain, pending.relative, pending.nowhere, pending.global, found, above]

/-- Two resolvers look for references in the same directories. -/
structure Agrees (left right : Resolver) : Prop where
  workspaceRoot : left.workspaceRoot = right.workspaceRoot
  packagePaths : left.packagePaths = right.packagePaths
  learnedRoots : left.learnedRoots = right.learnedRoots

theorem Agrees.plain {left right : Resolver} (agrees : left.Agrees right) (system : FileSystem)
    (request : Request) : left.plain system request = right.plain system request := by
  have placed : left.placed? system request = right.placed? system request := by
    simp only [placed?, candidates, searchPaths, agrees.workspaceRoot, agrees.packagePaths,
      agrees.learnedRoots]
  have sought (reference : Path) :
      left.sought? system reference = right.sought? system reference := by
    unfold sought? searchWorkspace
    rw [agrees.workspaceRoot]
  simp only [Resolver.plain, placed, sought]

theorem Agrees.asks {system : FileSystem} {left left' right right' : Resolver} {request : Request}
    {answer answer' : Resolution} (agrees : left.Agrees right)
    (asks : Asks system left request answer left') (sound : left.IsSound system)
    (asks' : Asks system right request answer' right') (sound' : right.IsSound system) :
    answer = answer' ∧ left'.Agrees right' := by
  obtain ⟨answered, learned⟩ := asks.plain sound
  obtain ⟨answered', learned'⟩ := asks'.plain sound'
  have same := agrees.plain system request
  refine ⟨by rw [answered, answered', same], ?_, ?_, ?_⟩
  · rw [asks.grown.workspaceRoot, asks'.grown.workspaceRoot, agrees.workspaceRoot]
  · rw [asks.grown.packagePaths, asks'.grown.packagePaths, agrees.packagePaths]
  · rw [learned, learned', same, agrees.learnedRoots]

theorem Agrees.forget {left right : Resolver} (agrees : left.Agrees right) :
    left.Agrees right.forget :=
  ⟨agrees.workspaceRoot, agrees.packagePaths, agrees.learnedRoots⟩

theorem IsSound.forget {system : FileSystem} {resolver : Resolver}
    (sound : resolver.IsSound system) : resolver.forget.IsSound system :=
  ⟨sound.normal, sound.distinct, sound.apart, fun _ member => nomatch member⟩

section Sequence

variable (memory : MemoryFiles) (normal : memory.IsNormal)
include normal

/-- Two resolvers that look in the same directories give the same answers, and go on to look
in the same directories, if one of them forgets its misses before each request. -/
theorem agrees_afresh (left right : Resolver) (requests : List Request)
    (agrees : left.Agrees right) (sound : left.IsSound (.memory memory))
    (sound' : right.IsSound (.memory memory)) :
    answers (ask (.memory memory)) left requests =
        answers (askAfresh (.memory memory)) right requests ∧
      (after (ask (.memory memory)) left requests).Agrees
        (after (askAfresh (.memory memory)) right requests) := by
  induction requests generalizing left right with
  | nil => exact ⟨rfl, agrees⟩
  | cons request rest ih =>
    -- Forgetting keeps a resolver sound, so the step lemma applies to both sides.
    have asks := asks_ask memory normal left request
    have asks' := asks_ask memory normal right.forget request
    have ⟨answered, next⟩ := agrees.forget.asks asks sound asks' sound'.forget
    have ⟨later, last⟩ := ih _ _ next (asks.isSound sound) (asks'.isSound sound'.forget)
    exact ⟨congrArg₂ List.cons answered later, last⟩

end Sequence

/-! ### No reference is searched for twice -/

/-- The next request for a reference is answered without a search. -/
def Settles (system : FileSystem) (resolver : Resolver) (reference : Path) : Prop :=
  reference ∈ resolver.misses ∨
    ∃ root ∈ resolver.learnedRoots, system.contains (root.join reference).normalize = true

theorem Extends.settles {system : FileSystem} {resolver next : Resolver} {reference : Path}
    (grown : resolver.Extends next) (settled : resolver.Settles system reference) :
    next.Settles system reference := by
  rcases settled with missed | ⟨root, learned, there⟩
  · exact .inl (grown.misses missed)
  · exact .inr ⟨root, grown.learnedRoots.subset learned, there⟩

theorem Pending.unsettled {system : FileSystem} {resolver : Resolver} {request : Request}
    (pending : Pending system resolver request) : ¬resolver.Settles system request.reference := by
  rintro (missed | ⟨root, learned, there⟩)
  · exact pending.new missed
  · have known : root ∈ resolver.directories request.referrer :=
      List.mem_append_right _ (.tail _ (List.mem_append_right _ learned))
    have absent := contains_of_nowhere resolver system request pending.nowhere root known
    exact absurd (there.symm.trans absent) Bool.noConfusion

/-- A request for which the whole workspace is searched. -/
def Seeks (system : FileSystem) (resolver : Resolver) (request : Request) : Prop :=
  Pending system resolver request ∧ request.reference.fileName? ≠ none

/-- A search settles the reference that it is made for. -/
theorem Asks.searches {system : FileSystem} {resolver next : Resolver} {request : Request}
    {answer : Resolution} (asks : Asks system resolver request answer next) :
    ¬Seeks system resolver request ∧ next.searches = resolver.searches ∨
      Seeks system resolver request ∧ next.searches = resolver.searches + 1 ∧
        next.Settles system request.reference := by
  cases asks with
  | direct _ _ given =>
    exact .inl ⟨(fun seeks => nomatch given.symm.trans seeks.1.relative), rfl⟩
  | placed _ _ first =>
    exact .inl ⟨(fun seeks => nomatch first.symm.trans seeks.1.nowhere), rfl⟩
  | unsought _ _ idle =>
    refine .inl ⟨fun seeks => ?_, rfl⟩
    rcases idle with confined | known
    · exact nomatch confined.symm.trans seeks.1.global
    · exact seeks.1.new known
  | nameless _ unnamed => exact .inl ⟨fun seeks => seeks.2 unnamed, rfl⟩
  | missed pending named => exact .inr ⟨⟨pending, named⟩, rfl, .inl (.head _)⟩
  | learned pending path root found above normal fresh leads there =>
    -- Nothing is found without a name to look for.
    have named : request.reference.fileName? ≠ none := by
      intro unnamed
      rw [sought?, unnamed, Option.bind_none] at found
      cases found
    refine .inr ⟨⟨pending, named⟩, rfl, .inr ⟨root, List.mem_append_right _ (.head _), ?_⟩⟩
    rw [leads]
    exact there

section Sequence

variable (memory : MemoryFiles) (normal : memory.IsNormal)
include normal

/-- Searches are made for different relative references, none of which is settled before. -/
theorem searched_once (resolver : Resolver) (requests : List Request) :
    (searched (.memory memory) resolver requests).Nodup ∧
      (∀ reference ∈ searched (.memory memory) resolver requests,
        reference.isAbsolute = false ∧ ¬resolver.Settles (.memory memory) reference) ∧
      (after (ask (.memory memory)) resolver requests).searches =
        resolver.searches + (searched (.memory memory) resolver requests).length := by
  induction requests generalizing resolver with
  | nil => exact ⟨List.nodup_nil, (fun _ absent => nomatch absent), rfl⟩
  | cons request rest ih =>
    have asks := asks_ask memory normal resolver request
    have ⟨different, later, counted⟩ := ih (resolver.ask (.memory memory) request).2
    -- What is settled stays settled, so what is searched for later is not settled now.
    have unsettled (reference : Path) (member : reference ∈
        searched (.memory memory) (resolver.ask (.memory memory) request).2 rest) :
        reference.isAbsolute = false ∧ ¬resolver.Settles (.memory memory) reference :=
      (later reference member).imp_right fun other settled => other (asks.grown.settles settled)
    have total : (after (ask (.memory memory)) resolver (request :: rest)).searches = _ := counted
    rw [total, searched]
    rcases asks.searches with ⟨_, idle⟩ | ⟨⟨pending, _⟩, once, settled⟩
    · rw [idle, Nat.sub_self]
      exact ⟨different, unsettled, rfl⟩
    · rw [once, Nat.add_sub_cancel_left, List.replicate_one, List.singleton_append]
      -- The search settles its reference, so that it is not among those searched for later.
      refine ⟨List.nodup_cons.mpr ⟨fun again => (later _ again).2 settled, different⟩, ?_, ?_⟩
      · intro reference member
        rcases List.mem_cons.mp member with rfl | member
        · exact ⟨(accepted_of_relative _ request pending.relative).2.2, pending.unsettled⟩
        · exact unsettled reference member
      · rw [List.length_cons]
        omega

end Sequence

/-- Remembered misses and learned directories only save searches. A resolver that keeps no
misses gives the same answers and learns the same directories, and each reference is searched
for at most once. -/
theorem lookup_searches_once (workspaceRoot : Path) (packagePaths : List Path)
    (changes : List FileChange) (requests : List Request) :
    let system := FileSystem.memory (.ofChanges changes)
    let fresh := new workspaceRoot packagePaths
    answers (ask system) fresh requests = answers (askAfresh system) fresh requests ∧
      (after (ask system) fresh requests).learnedRoots =
        (after (askAfresh system) fresh requests).learnedRoots ∧
      (searched system fresh requests).Nodup ∧
      (∀ reference ∈ searched system fresh requests, reference.isAbsolute = false) ∧
      (after (ask system) fresh requests).searches = (searched system fresh requests).length := by
  intro system fresh
  have normal := MemoryFiles.isNormal_ofChanges changes
  have sound := isSound_new system workspaceRoot packagePaths
  have ⟨answered, agrees⟩ := agrees_afresh _ normal fresh fresh requests ⟨rfl, rfl, rfl⟩ sound sound
  have ⟨different, relative, counted⟩ := searched_once _ normal fresh requests
  refine ⟨answered, agrees.learnedRoots, different, fun reference member => ?_, ?_⟩
  · exact (relative reference member).1
  · rw [counted]
    exact Nat.zero_add _

end FirmwareWorkspace.Resolver
