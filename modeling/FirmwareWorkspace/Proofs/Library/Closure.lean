import FirmwareWorkspace.Closure
import FirmwareWorkspace.Proofs.Path.Normal

/-!
# What library closures hold

The closure of a component is computed with a bounded number of visits. `Visits` says what
visiting without a bound gives; its derivations are finite, and the bound is never met: the
queue together with the classes of modules that were not visited goes down with every visit.

A closure has a binding for every class of a module that it visits, and it visits whatever it
binds and is loaded.
-/
namespace FirmwareWorkspace

/-! ### Paths not yet seen -/

theorem Path.same_iff (left right : Path) : left.same right = true ↔ left.parts = right.parts :=
  beq_iff_eq

theorem any_same_iff (seen : List Path) (path : Path) :
    seen.any (·.same path) = true ↔ path.parts ∈ seen.map Path.parts := by
  simp only [List.any_eq_true, Path.same_iff, List.mem_map]

section Unseen

variable (seen paths : List Path)

theorem unseen_sublist : (unseen seen paths).Sublist paths := by
  induction paths generalizing seen with
  | nil => exact .slnil
  | cons path rest ih =>
    rw [unseen]
    split
    · exact (ih seen).cons path
    · exact (ih _).cons_cons path

/-- Unseen paths differ from each other and from those that were seen. -/
theorem unseen_fresh :
    ((unseen seen paths).map Path.parts).Nodup ∧
      ∀ path ∈ unseen seen paths, path.parts ∉ seen.map Path.parts := by
  induction paths generalizing seen with
  | nil => exact ⟨.nil, fun _ none => nomatch none⟩
  | cons first rest ih =>
    rw [unseen]
    split
    · exact ih seen
    next absent =>
      -- The rest is judged with the first path among those that were seen.
      have ⟨nodup, fresh⟩ := ih (first :: seen)
      constructor
      · refine List.nodup_cons.mpr ⟨fun again => ?_, nodup⟩
        obtain ⟨other, member, equal⟩ := List.mem_map.mp again
        exact fresh other member (equal ▸ .head _)
      · intro path member known
        rcases List.mem_cons.mp member with rfl | later
        · exact absent ((any_same_iff seen path).mpr known)
        · exact fresh path later (.tail _ known)

/-- Every path has been seen or is among the unseen ones, in one of its spellings. -/
theorem seen_or_unseen (path : Path) (member : path ∈ paths) :
    ∃ other ∈ unseen seen paths ++ seen, other.same path = true := by
  induction paths generalizing seen with
  | nil => cases member
  | cons first rest ih =>
    rw [unseen]
    split
    next present =>
      rcases List.mem_cons.mp member with rfl | later
      · obtain ⟨other, before, same⟩ := List.any_eq_true.mp present
        exact ⟨other, List.mem_append_right _ before, same⟩
      · exact ih seen later
    · rcases List.mem_cons.mp member with rfl | later
      · exact ⟨path, .head _, (Path.same_iff _ _).mpr rfl⟩
      · obtain ⟨other, found, same⟩ := ih (first :: seen) later
        refine ⟨other, ?_, same⟩
        simp only [List.mem_append, List.mem_cons, List.cons_append] at found ⊢
        rcases found with new | rfl | old
        · exact .inr (.inl new)
        · exact .inl rfl
        · exact .inr (.inr old)

/-- Nothing is unseen after what was unseen has been seen. -/
theorem unseen_unseen : unseen (unseen seen paths ++ seen) paths = [] := by
  have known (more : List Path)
      (all : ∀ path ∈ more, ∃ other ∈ unseen seen paths ++ seen, other.same path = true) :
      unseen (unseen seen paths ++ seen) more = [] := by
    induction more with
    | nil => rfl
    | cons path rest ih =>
      rw [unseen, if_pos (List.any_eq_true.mpr (all path (.head _)))]
      exact ih fun other member => all other (.tail _ member)
  exact known paths (seen_or_unseen seen paths)

/-- Among normal forms, every path has been seen or is among the unseen ones. -/
theorem mem_seen_or_unseen (path : Path) (member : path ∈ paths)
    (normal : ∀ other ∈ paths ++ seen, other.normalize = other) :
    path ∈ seen ∨ path ∈ unseen seen paths := by
  obtain ⟨other, found, same⟩ := seen_or_unseen seen paths path member
  have kept : other ∈ paths ++ seen := by
    rcases List.mem_append.mp found with new | old
    · exact List.mem_append_left _ ((unseen_sublist seen paths).subset new)
    · exact List.mem_append_right _ old
  have equal := Path.eq_of_same other path (normal other kept)
    (normal path (List.mem_append_left _ member)) same
  rw [← equal]
  exact (List.mem_append.mp found).symm

end Unseen

/-! ### Visits without a bound -/

/-- The modules that a visit finds. -/
def foundBy (index : SymbolIndex) (context : ConsumerContext) (seen : List Path) (consumer : Path)
    (info : ModuleInfo) : List Path :=
  unseen seen ((bindingsOf index context consumer info).filterMap LibraryBinding.target?)

/-- How the modules of a queue are visited if nothing bounds the visits: from the queue and
the paths that were ever in it to the bindings. -/
inductive Visits (index : SymbolIndex) (modules : List ModuleInfo) (context : ConsumerContext) :
    List Path → List Path → List LibraryBinding → Prop
  | done {seen : List Path} : Visits index modules context [] seen []
  /-- The module is not loaded. -/
  | skip {consumer : Path} {queue seen : List Path} {bindings : List LibraryBinding}
      (absent : findModule? modules consumer = none)
      (after : Visits index modules context queue seen bindings) :
      Visits index modules context (consumer :: queue) seen bindings
  | visit {consumer : Path} {queue seen : List Path} {info : ModuleInfo}
      {bindings : List LibraryBinding} (loaded : findModule? modules consumer = some info)
      (after : Visits index modules context (queue ++ foundBy index context seen consumer info)
        (foundBy index context seen consumer info ++ seen) bindings) :
      Visits index modules context (consumer :: queue) seen
        (bindingsOf index context consumer info ++ bindings)

section Bound

variable (modules : List ModuleInfo) (visited : List Path)

/-- The classes that a module still adds: none after a visit. -/
def ModuleInfo.classesLeft (info : ModuleInfo) : List String :=
  if info.path.parts ∈ visited.map Path.parts then [] else info.libraryClasses

/-- The classes of the modules that were not visited. -/
def classesLeft : List String :=
  modules.flatMap (·.classesLeft visited)

theorem classesLeft_nil : classesLeft modules [] = modules.flatMap (·.libraryClasses) :=
  congrArg modules.flatMap (funext fun _ => if_neg List.not_mem_nil)

theorem ModuleInfo.length_classesLeft_le (info : ModuleInfo) (consumer : Path) :
    (info.classesLeft (consumer :: visited)).length ≤ (info.classesLeft visited).length := by
  unfold ModuleInfo.classesLeft
  by_cases known : info.path.parts ∈ visited.map Path.parts
  · have again : info.path.parts ∈ (consumer :: visited).map Path.parts := .tail _ known
    exact Nat.le_of_eq (by rw [if_pos known, if_pos again])
  · rw [if_neg known]
    split
    · exact Nat.zero_le _
    · exact Nat.le_refl _

theorem length_classesLeft_le (consumer : Path) :
    (classesLeft modules (consumer :: visited)).length ≤ (classesLeft modules visited).length := by
  induction modules with
  | nil => exact Nat.le_refl 0
  | cons info rest ih =>
    simp only [classesLeft, List.flatMap_cons, List.length_append] at ih ⊢
    exact Nat.add_le_add (info.length_classesLeft_le visited consumer) ih

/-- A first visit takes away the classes of the module that it finds. -/
theorem length_classesLeft_visit (consumer : Path) (info : ModuleInfo)
    (loaded : findModule? modules consumer = some info)
    (first : consumer.parts ∉ visited.map Path.parts) :
    (classesLeft modules (consumer :: visited)).length + info.libraryClasses.length ≤
      (classesLeft modules visited).length := by
  have same := List.find?_some loaded
  have equal : info.path.parts = consumer.parts := (Path.same_iff _ _).mp same
  have before : info.classesLeft visited = info.libraryClasses := by
    rw [ModuleInfo.classesLeft, equal, if_neg first]
  have after : info.classesLeft (consumer :: visited) = [] := by
    rw [ModuleInfo.classesLeft, equal, if_pos (.head _)]
  obtain ⟨front, back, listed⟩ := List.append_of_mem (List.mem_of_find?_eq_some loaded)
  have earlier := length_classesLeft_le front visited consumer
  have later := length_classesLeft_le back visited consumer
  simp only [classesLeft, listed, List.flatMap_append, List.flatMap_cons, List.length_append,
    before, after, List.length_nil] at earlier later ⊢
  omega

end Bound

variable (index : SymbolIndex) (modules : List ModuleInfo) (context : ConsumerContext)

theorem length_foundBy (seen : List Path) (consumer : Path) (info : ModuleInfo) :
    (foundBy index context seen consumer info).length ≤ info.libraryClasses.length := by
  calc
    _ ≤ ((bindingsOf index context consumer info).filterMap LibraryBinding.target?).length :=
      (unseen_sublist _ _).length_le
    _ ≤ (bindingsOf index context consumer info).length := List.length_filterMap_le _ _
    _ = info.libraryClasses.length := List.length_map _

/-- After a visit the queue and the visited modules are those from before and what was found. -/
theorem perm_visit (queue visited found : List Path) (consumer : Path) :
    ((queue ++ found) ++ consumer :: visited).Perm (found ++ (consumer :: queue ++ visited)) := by
  rw [List.perm_iff_count]
  intro path
  simp only [List.count_append, List.count_cons]
  omega

section Visit

variable {queue seen visited : List Path} {consumer : Path} {info : ModuleInfo}
  (distinct : ((consumer :: queue ++ visited).map Path.parts).Nodup)
include distinct

/-- What a visit finds comes from outside of all that was seen. -/
theorem nodup_visit (known : consumer :: queue ++ visited ⊆ seen) :
    (((queue ++ foundBy index context seen consumer info) ++ consumer :: visited).map
      Path.parts).Nodup := by
  have ⟨nodup, fresh⟩ := unseen_fresh seen
    ((bindingsOf index context consumer info).filterMap LibraryBinding.target?)
  rw [((perm_visit queue visited _ consumer).map Path.parts).nodup_iff, List.map_append,
    List.nodup_append]
  refine ⟨nodup, distinct, fun parts new other old equal => ?_⟩
  obtain ⟨path, found, rfl⟩ := List.mem_map.mp new
  exact fresh path found (equal ▸ List.map_subset Path.parts known old)

/-- A visit pays for what it finds with the classes of its module. -/
theorem enough_visit (loaded : findModule? modules consumer = some info) (visits : Nat)
    (enough : queue.length + (classesLeft modules visited).length ≤ visits) :
    (queue ++ foundBy index context seen consumer info).length +
      (classesLeft modules (consumer :: visited)).length ≤ visits := by
  have first : consumer.parts ∉ visited.map Path.parts := by
    rw [List.cons_append, List.map_cons, List.nodup_cons, List.map_append] at distinct
    exact fun again => distinct.1 (List.mem_append_right _ again)
  have left := length_classesLeft_visit modules visited consumer info loaded first
  have found := length_foundBy index context seen consumer info
  rw [List.length_append]
  omega

end Visit

/-- Visits that suffice for the queue and for all classes of unvisited modules do not run out. -/
theorem visits_closureFrom (visits : Nat) (queue seen visited : List Path)
    (distinct : ((queue ++ visited).map Path.parts).Nodup) (known : queue ++ visited ⊆ seen)
    (enough : queue.length + (classesLeft modules visited).length ≤ visits) :
    Visits index modules context queue seen
      (closureFrom index modules context visits queue seen) := by
  induction visits generalizing queue seen visited with
  | zero =>
    have empty : queue = [] := List.length_eq_zero_iff.mp (by omega)
    rw [empty]
    exact .done
  | succ visits ih =>
    cases queue with
    | nil => exact .done
    | cons consumer queue =>
      rw [closureFrom]
      have fewer : queue.length + (classesLeft modules visited).length ≤ visits := by
        rw [List.length_cons] at enough
        omega
      split
      next absent =>
        rw [List.cons_append] at known
        exact .skip absent (ih queue seen visited (List.nodup_cons.mp distinct).2
          (List.subset_of_cons_subset known) fewer)
      next info loaded =>
        -- A visit queues at most one instance for each class that it takes from those left.
        refine .visit loaded (ih _ _ (consumer :: visited) ?_ ?_ ?_)
        · exact nodup_visit index context distinct known
        · intro path member
          rcases List.mem_append.mp ((perm_visit _ _ _ _).subset member) with new | old
          · exact List.mem_append_left _ new
          · exact List.mem_append_right _ (known old)
        · exact enough_visit index modules context distinct loaded visits fewer

/-- The closure of a component is what visiting without a bound gives. -/
theorem visits_libraryClosure (component : Path) :
    Visits index modules context [component] [component]
      (libraryClosure index modules component context) := by
  refine visits_closureFrom index modules context _ [component] [component] []
    (List.nodup_cons.mpr ⟨List.not_mem_nil, .nil⟩) (List.Subset.refl _) ?_
  rw [classesLeft_nil, List.length_singleton]
  omega

/-! ### Completeness -/

/-- Every class of the module at a path, if one is loaded there, has a binding. -/
def Serves (modules : List ModuleInfo) (bindings : List LibraryBinding) (context : ConsumerContext)
    (consumer : Path) : Prop :=
  ∀ info, findModule? modules consumer = some info → ∀ className ∈ info.libraryClasses,
    ∃ binding ∈ bindings, binding.context = context ∧ binding.consumer = consumer ∧
      binding.className = className

theorem Serves.mono {modules : List ModuleInfo} {bindings more : List LibraryBinding}
    {context : ConsumerContext} {consumer : Path}
    (serves : Serves modules bindings context consumer) (grown : bindings ⊆ more) :
    Serves modules more context consumer := by
  intro info loaded className used
  obtain ⟨binding, bound, told⟩ := serves info loaded className used
  exact ⟨binding, grown bound, told⟩

namespace Visits

variable {index modules context} {queue seen : List Path} {bindings : List LibraryBinding}

theorem made_for (visits : Visits index modules context queue seen bindings)
    (binding : LibraryBinding) (bound : binding ∈ bindings) :
    binding.context = context ∧
      binding.resolution = Library.resolve index binding.className context := by
  induction visits with
  | done => cases bound
  | skip _ _ ih => exact ih bound
  | visit _ _ ih =>
    rcases List.mem_append.mp bound with own | later
    · obtain ⟨_, _, rfl⟩ := List.mem_map.mp own
      exact ⟨rfl, rfl⟩
    · exact ih later

/-- A binding is made for a class of a loaded module, at the line that was found for it. -/
theorem made_by (visits : Visits index modules context queue seen bindings)
    (binding : LibraryBinding) (bound : binding ∈ bindings) :
    ∃ info, findModule? modules binding.consumer = some info ∧
      binding.className ∈ info.libraryClasses ∧
      binding.usage = usageLocation? index info.file binding.className := by
  induction visits with
  | done => cases bound
  | skip _ _ ih => exact ih bound
  | visit loaded _ ih =>
    rcases List.mem_append.mp bound with own | later
    · obtain ⟨className, used, rfl⟩ := List.mem_map.mp own
      exact ⟨_, loaded, used, rfl⟩
    · exact ih later

theorem eq_nil_of_unloaded (visits : Visits index [] context queue seen bindings) :
    bindings = [] := by
  induction visits with
  | done => rfl
  | skip _ _ ih => exact ih
  | visit loaded _ _ => cases loaded

/-- Whatever is in the queue is visited. -/
theorem serves (visits : Visits index modules context queue seen bindings) (consumer : Path)
    (queued : consumer ∈ queue) : Serves modules bindings context consumer := by
  induction visits with
  | done => cases queued
  | skip absent _ ih =>
    rcases List.mem_cons.mp queued with rfl | later
    · intro info loaded
      rw [absent] at loaded
      cases loaded
    · exact ih later
  | visit found _ ih =>
    rcases List.mem_cons.mp queued with rfl | later
    · intro info loaded className used
      rw [found] at loaded
      cases loaded
      exact ⟨_, List.mem_append_left _ (List.mem_map_of_mem used), rfl, rfl, rfl⟩
    · exact (ih (List.mem_append_left _ later)).mono (List.subset_append_right _ _)

/-- Whatever is bound was seen before or is visited. -/
theorem seen_or_serves (visits : Visits index modules context queue seen bindings)
    (normal : ∀ className path,
      ((Library.resolve index className context).symbol?.bind (·.target)) = some path →
        path.normalize = path)
    (spelled : ∀ path ∈ seen, path.normalize = path) (binding : LibraryBinding)
    (bound : binding ∈ bindings) (target : Path) (aimed : binding.target? = some target) :
    target ∈ seen ∨ Serves modules bindings context target := by
  -- What a visit finds is queued behind the others, so it is visited later.
  induction visits with
  | done => cases bound
  | skip _ _ ih => exact ih spelled bound
  | @visit consumer queue seen info rest _ after ih =>
    let targets := (bindingsOf index context consumer info).filterMap LibraryBinding.target?
    have targetsNormal (path : Path) (member : path ∈ targets) : path.normalize = path := by
      obtain ⟨own, made, leads⟩ := List.mem_filterMap.mp member
      obtain ⟨className, _, rfl⟩ := List.mem_map.mp made
      exact normal className path leads
    have visited (found : target ∈ foundBy index context seen consumer info) :
        Serves modules (bindingsOf index context consumer info ++ rest) context target :=
      (after.serves target (List.mem_append_right _ found)).mono (List.subset_append_right _ _)
    rcases List.mem_append.mp bound with own | later
    · have member : target ∈ targets := List.mem_filterMap.mpr ⟨binding, own, aimed⟩
      refine (mem_seen_or_unseen seen targets target member fun path either => ?_).imp_right visited
      exact (List.mem_append.mp either).elim (targetsNormal path) (spelled path)
    · have extended (path : Path)
          (member : path ∈ foundBy index context seen consumer info ++ seen) :
          path.normalize = path := by
        rcases List.mem_append.mp member with new | old
        · exact targetsNormal path ((unseen_sublist _ _).subset new)
        · exact spelled path old
      rcases ih extended later with known | served
      · exact (List.mem_append.mp known).symm.imp_right visited
      · exact .inr (served.mono (List.subset_append_right _ _))

/-- Whatever consumes a class was in the queue or is bound by another module. -/
theorem queued_or_bound (visits : Visits index modules context queue seen bindings)
    (known : queue ⊆ seen) (binding : LibraryBinding) (bound : binding ∈ bindings) :
    binding.consumer ∈ queue ∨ ∃ other ∈ bindings, other ≠ binding ∧
      other.context = binding.context ∧ other.target? = some binding.consumer := by
  have same := (visits.made_for binding bound).1
  induction visits with
  | done => cases bound
  | skip _ _ ih =>
    exact (ih (List.subset_of_cons_subset known) bound).imp_left (List.mem_cons_of_mem _)
  | @visit consumer queue seen info rest _ after ih =>
    rcases List.mem_append.mp bound with own | later
    · obtain ⟨_, _, rfl⟩ := List.mem_map.mp own
      exact .inl (.head _)
    · have extended : queue ++ foundBy index context seen consumer info ⊆
          foundBy index context seen consumer info ++ seen := by
        intro path member
        rcases List.mem_append.mp member with queued | found
        · exact List.mem_append_right _ (known (.tail _ queued))
        · exact List.mem_append_left _ found
      rcases ih extended later with either | ⟨other, made, told⟩
      · rcases List.mem_append.mp either with queued | found
        · exact .inl (.tail _ queued)
        · -- The visit found the module, and it had not been seen, so it is another one.
          obtain ⟨other, made, leads⟩ := List.mem_filterMap.mp ((unseen_sublist _ _).subset found)
          obtain ⟨className, used, rfl⟩ := List.mem_map.mp made
          refine .inr ⟨_, List.mem_append_left _ made, fun equal => ?_, same.symm, leads⟩
          have fresh := (unseen_fresh _ _).2 _ found
          rw [← equal] at fresh
          exact fresh (List.mem_map_of_mem (known (.head _)))
      · exact .inr ⟨other, List.mem_append_right _ made, told⟩

end Visits

end FirmwareWorkspace
