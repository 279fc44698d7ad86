import FirmwareWorkspace.Proofs.Library.Closure
import Mathlib.Data.List.Nodup

/-!
# Library closures and reachability

A component reaches its own module and the instances of the classes of every loaded module that
it reaches. The closure of the component has one binding for each class of each loaded module
that is reached, whether or not modules need each other in turn.

The queue of visits is the order of discovery: `Visits.exists_found` says that it lists what the
modules of the queue itself need, each where it is first mentioned. What is nearer to the
component comes first in such a list.
-/
namespace FirmwareWorkspace

section Needs

variable (index : SymbolIndex) (modules : List ModuleInfo) (context : ConsumerContext)

/-- The library classes of the module at a path; none if no module is loaded there. -/
def classesAt (consumer : Path) : List String :=
  (findModule? modules consumer).elim [] ModuleInfo.libraryClasses

/-- The instances to which the classes of the module at a path resolve. -/
def instancesFor (consumer : Path) : List Path :=
  (classesAt modules consumer).filterMap fun className =>
    (Library.resolve index className context).symbol?.bind (·.target)

/-- The bindings of the module at a path. -/
def bindingsAt (consumer : Path) : List LibraryBinding :=
  (findModule? modules consumer).elim [] (bindingsOf index context consumer)

/-- A path that a component reaches by steps from a loaded module to an instance of one of its
classes. -/
def ReachedIn (component : Path) : Nat → Path → Prop
  | 0, path => component.same path = true
  | steps + 1, path => ∃ consumer, ReachedIn component steps consumer ∧
    ∃ target ∈ instancesFor index modules context consumer, target.same path = true

/-- An order of all that a component reaches, the nearest first. -/
structure IsBreadthFirst (component : Path) (order : List Path) : Prop where
  distinct : (order.map Path.parts).Nodup
  reached : ∀ path, path.parts ∈ order.map Path.parts ↔
    ∃ steps, ReachedIn index modules context component steps path
  nearest : order.Pairwise fun earlier later =>
    ∀ steps, ReachedIn index modules context component steps later →
      ∃ fewer ≤ steps, ReachedIn index modules context component fewer earlier
  /-- Paths stand in the order in which they are first mentioned: the component, then what the
  modules need, one after the other in this same order. -/
  discovered : order.map Path.parts =
    ((component :: order.flatMap (instancesFor index modules context)).map Path.parts).eraseDups

end Needs

/-! ### Spellings -/

section Spellings

variable {index : SymbolIndex} {modules : List ModuleInfo} {context : ConsumerContext}

theorem findModule_congr {left right : Path} (same : left.parts = right.parts) :
    findModule? modules left = findModule? modules right := by
  unfold findModule? Path.same
  rw [same]

theorem classesAt_congr {left right : Path} (same : left.parts = right.parts) :
    classesAt modules left = classesAt modules right := by
  rw [classesAt, classesAt, findModule_congr same]

theorem instancesFor_congr {left right : Path} (same : left.parts = right.parts) :
    instancesFor index modules context left = instancesFor index modules context right := by
  rw [instancesFor, instancesFor, classesAt_congr same]

theorem ReachedIn.congr {component left right : Path} {steps : Nat}
    (same : left.parts = right.parts)
    (reached : ReachedIn index modules context component steps left) :
    ReachedIn index modules context component steps right := by
  cases steps with
  | zero => exact (Path.same_iff _ _).mpr (((Path.same_iff _ _).mp reached).trans same)
  | succ steps =>
    obtain ⟨consumer, before, target, needed, equal⟩ := reached
    exact ⟨consumer, before, target, needed,
      (Path.same_iff _ _).mpr (((Path.same_iff _ _).mp equal).trans same)⟩

/-- One step further. -/
theorem ReachedIn.step {component consumer target : Path} {steps : Nat}
    (reached : ReachedIn index modules context component steps consumer)
    (needed : target ∈ instancesFor index modules context consumer) :
    ReachedIn index modules context component (steps + 1) target :=
  ⟨consumer, reached, target, needed, (Path.same_iff _ _).mpr rfl⟩

end Spellings

/-! ### First mentions -/

section Mentions

variable (seen : List Path)

/-- Only the parts of the paths that were seen matter, not their order. -/
theorem unseen_congr (other paths : List Path)
    (same : ∀ parts, parts ∈ seen.map Path.parts ↔ parts ∈ other.map Path.parts) :
    unseen seen paths = unseen other paths := by
  induction paths generalizing seen other with
  | nil => rfl
  | cons path rest ih =>
    have both : seen.any (·.same path) = other.any (·.same path) := by
      rw [Bool.eq_iff_iff, any_same_iff, any_same_iff, same]
    rw [unseen, unseen, both, ih seen other same]
    congr 2
    refine ih (path :: seen) (path :: other) fun parts => ?_
    rw [List.map_cons, List.map_cons, List.mem_cons, List.mem_cons, same]

theorem unseen_append (front back : List Path) :
    unseen seen (front ++ back) =
      unseen seen front ++ unseen (unseen seen front ++ seen) back := by
  induction front generalizing seen with
  | nil => rfl
  | cons path rest ih =>
    rw [List.cons_append, unseen, unseen]
    split
    · exact ih seen
    · rw [ih, List.cons_append]
      congr 2
      -- The first path stands at another place among those that were seen.
      refine unseen_congr _ _ _ fun parts => ?_
      simp only [List.map_append, List.map_cons, List.mem_append, List.mem_cons, List.cons_append]
      exact or_left_comm

/-- The unseen paths are the first mentions of what was not seen. -/
theorem map_parts_unseen (paths : List Path) :
    (unseen seen paths).map Path.parts =
      ((paths.map Path.parts).removeAll (seen.map Path.parts)).eraseDups := by
  induction paths generalizing seen with
  | nil => rfl
  | cons path rest ih =>
    rw [unseen]
    by_cases known : path.parts ∈ seen.map Path.parts
    · rw [if_pos ((any_same_iff seen path).mpr known), ih seen, List.map_cons,
        List.removeAll, List.removeAll, List.filter_cons_of_neg (by simpa using known)]
    · have absent := mt (any_same_iff seen path).mp known
      simp only [if_neg absent, List.map_cons, ih (path :: seen), List.removeAll]
      rw [List.filter_cons_of_pos (by simpa using known), List.eraseDups_cons, List.filter_filter]
      congr 3
      funext parts
      rw [List.elem_cons]
      cases parts == path.parts <;> rfl

/-- A path mentioned in the front part comes before all first mentions in the back part. -/
theorem mem_front_of_sublist (front back : List Path) (first second : Path)
    (ordered : [first, second].Sublist (unseen seen (front ++ back)))
    (mentioned : second.parts ∈ front.map Path.parts) : first ∈ front := by
  rw [unseen_append] at ordered
  obtain ⟨before, after, parted, left, right⟩ := List.sublist_append_iff.mp ordered
  cases after with
  | nil =>
    rw [List.append_nil] at parted
    rw [← parted] at left
    exact (unseen_sublist seen front).subset (left.subset (.head _))
  | cons last more =>
    -- The second path would be new after the front part, which mentions it.
    have ends : second ∈ last :: more := by
      have whole : (before ++ last :: more).getLast? = some second := by rw [← parted]; rfl
      rw [List.getLast?_append_cons] at whole
      exact List.mem_of_getLast? whole
    have fresh := (unseen_fresh _ back).2 second (right.subset ends)
    obtain ⟨other, written, equal⟩ := List.mem_map.mp mentioned
    obtain ⟨known, there, same⟩ := seen_or_unseen seen front other written
    refine absurd (List.mem_map.mpr ⟨known, there, ?_⟩) fresh
    rw [(Path.same_iff _ _).mp same, equal]

end Mentions

variable {index : SymbolIndex} {modules : List ModuleInfo} {context : ConsumerContext}

/-! ### The order of visits -/

theorem targets_bindingsAt (consumer : Path) :
    (bindingsAt index modules context consumer).filterMap LibraryBinding.target? =
      instancesFor index modules context consumer := by
  rw [bindingsAt, instancesFor, classesAt]
  cases findModule? modules consumer with
  | none => rfl
  | some info =>
    simp only [Option.elim_some, bindingsOf, List.filterMap_map]
    rfl

/-- Visits go through the queue and what it leads to, in the order of first mention. -/
theorem Visits.exists_found {queue seen : List Path} {bindings : List LibraryBinding}
    (visits : Visits index modules context queue seen bindings) :
    ∃ found, bindings = (queue ++ found).flatMap (bindingsAt index modules context) ∧
      found = unseen seen ((queue ++ found).flatMap (instancesFor index modules context)) ∧
      ∀ component, (∀ path ∈ queue, ∃ steps, ReachedIn index modules context component steps path) →
        ∀ path ∈ found, ∃ steps, ReachedIn index modules context component steps path := by
  induction visits with
  | done => exact ⟨[], rfl, rfl, fun _ _ _ none => nomatch none⟩
  | @skip consumer queue seen bindings absent _ ih =>
    obtain ⟨found, made, mentioned, reached⟩ := ih
    have nothing : bindingsAt index modules context consumer = [] := by
      rw [bindingsAt, absent]
      rfl
    have nowhere : instancesFor index modules context consumer = [] := by
      rw [← targets_bindingsAt, nothing]
      rfl
    refine ⟨found, ?_, ?_, fun component queued => reached component fun path member =>
      queued path (.tail _ member)⟩
    · rw [List.cons_append, List.flatMap_cons, nothing, List.nil_append]
      exact made
    · rw [List.cons_append, List.flatMap_cons, nowhere, List.nil_append]
      exact mentioned
  | @visit consumer queue seen info bindings loaded _ ih =>
    obtain ⟨later, made, mentioned, reached⟩ := ih
    have own : bindingsAt index modules context consumer =
        bindingsOf index context consumer info := by
      rw [bindingsAt, loaded]
      rfl
    have new : foundBy index context seen consumer info =
        unseen seen (instancesFor index modules context consumer) := by
      rw [foundBy, ← own, targets_bindingsAt]
    refine ⟨foundBy index context seen consumer info ++ later, ?_, ?_, fun component queued => ?_⟩
    · rw [List.cons_append, List.flatMap_cons, own, ← List.append_assoc]
      exact congrArg _ made
    · -- What the visit finds comes first, and the rest is judged with it among what was seen.
      rw [List.cons_append, List.flatMap_cons, unseen_append, ← new, ← List.append_assoc]
      exact congrArg _ mentioned
    · have found (path : Path) (member : path ∈ foundBy index context seen consumer info) :
          ∃ steps, ReachedIn index modules context component steps path := by
        obtain ⟨steps, here⟩ := queued consumer (.head _)
        rw [new] at member
        exact ⟨steps + 1, here.step ((unseen_sublist _ _).subset member)⟩
      intro path member
      rcases List.mem_append.mp member with own | later
      · exact found path own
      · refine reached component (fun other either => ?_) path later
        rcases List.mem_append.mp either with waiting | own
        · exact queued other (.tail _ waiting)
        · exact found other own

section Order

variable {component : Path} {found : List Path}
  (mentioned : found = unseen [component]
    ((component :: found).flatMap (instancesFor index modules context)))
include mentioned

/-- Whatever is reached is in the order. -/
theorem mem_order_of_reachedIn (steps : Nat) (path : Path)
    (reached : ReachedIn index modules context component steps path) :
    path.parts ∈ (component :: found).map Path.parts := by
  induction steps generalizing path with
  | zero => exact (Path.same_iff _ _).mp reached ▸ .head _
  | succ steps ih =>
    obtain ⟨consumer, before, target, needed, same⟩ := reached
    -- The module that needs the path has been visited, perhaps in another spelling.
    obtain ⟨visited, inside, equal⟩ := List.mem_map.mp (ih consumer before)
    rw [← instancesFor_congr equal] at needed
    obtain ⟨known, there, sameToo⟩ := seen_or_unseen [component] _ target
      (List.mem_flatMap.mpr ⟨visited, inside, needed⟩)
    rw [← mentioned] at there
    refine List.mem_map.mpr ⟨known, ?_, ?_⟩
    · exact (List.mem_append.mp there).elim (.tail _) fun own => List.mem_singleton.mp own ▸ .head _
    · exact ((Path.same_iff _ _).mp sameToo).trans ((Path.same_iff _ _).mp same)

/-- What comes earlier is reached in no more steps. -/
theorem reachedIn_of_sublist (steps : Nat) (earlier later : Path)
    (ordered : [earlier, later].Sublist (component :: found))
    (reached : ReachedIn index modules context component steps later) :
    ∃ fewer ≤ steps, ReachedIn index modules context component fewer earlier := by
  have fresh := (unseen_fresh [component]
    ((component :: found).flatMap (instancesFor index modules context))).2
  rw [← mentioned] at fresh
  induction steps generalizing earlier later with
  | zero =>
    -- The component itself comes first and is not found again.
    have behind : later ∈ found := by
      cases ordered with
      | cons _ rest => exact rest.subset (.tail _ (.head _))
      | cons_cons _ rest => exact rest.subset (.head _)
    exact absurd ((Path.same_iff _ _).mp reached ▸ .head _) (fresh later behind)
  | succ steps ih =>
    obtain ⟨consumer, before, target, needed, same⟩ := reached
    cases ordered with
    | cons_cons _ _ => exact ⟨0, Nat.zero_le _, (Path.same_iff _ _).mpr rfl⟩
    | cons _ ordered =>
      obtain ⟨visited, inside, equal⟩ :=
        List.mem_map.mp (mem_order_of_reachedIn mentioned steps consumer before)
      have there := ReachedIn.congr equal.symm before
      rw [← instancesFor_congr equal] at needed
      -- The module that needs `later` has been visited, so `earlier` was mentioned by then.
      obtain ⟨front, back, parted⟩ := List.append_of_mem inside
      have split : component :: found = (front ++ [visited]) ++ back := by
        rw [parted, List.append_assoc, List.singleton_append]
      rw [mentioned, split, List.flatMap_append] at ordered
      have written : later.parts ∈
          ((front ++ [visited]).flatMap (instancesFor index modules context)).map Path.parts := by
        rw [← (Path.same_iff _ _).mp same]
        exact List.mem_map_of_mem (List.mem_flatMap.mpr ⟨visited, by simp, needed⟩)
      obtain ⟨other, early, needs⟩ :=
        List.mem_flatMap.mp (mem_front_of_sublist _ _ _ _ _ ordered written)
      rcases List.mem_append.mp early with early | own
      · have apart : [other, visited].Sublist (component :: found) := by
          rw [parted]
          exact (List.singleton_sublist.mpr early).append (List.singleton_sublist.mpr (.head _))
        obtain ⟨fewer, bound, near⟩ := ih other visited apart there
        exact ⟨fewer + 1, Nat.succ_le_succ bound, near.step needs⟩
      · rw [List.mem_singleton.mp own] at needs
        exact ⟨steps + 1, Nat.le_refl _, there.step needs⟩

theorem isBreadthFirst_of_mentioned
    (sound : ∀ path ∈ found, ∃ steps, ReachedIn index modules context component steps path) :
    IsBreadthFirst index modules context component (component :: found) where
  distinct := by
    have ⟨nodup, fresh⟩ := unseen_fresh [component]
      ((component :: found).flatMap (instancesFor index modules context))
    rw [← mentioned] at nodup fresh
    refine List.nodup_cons.mpr ⟨fun again => ?_, nodup⟩
    obtain ⟨path, member, equal⟩ := List.mem_map.mp again
    exact fresh path member (equal ▸ .head _)
  reached path := by
    refine ⟨fun member => ?_, fun ⟨steps, reached⟩ =>
      mem_order_of_reachedIn mentioned steps path reached⟩
    obtain ⟨other, inside, equal⟩ := List.mem_map.mp member
    rcases List.mem_cons.mp inside with rfl | behind
    · exact ⟨0, (Path.same_iff _ _).mpr equal⟩
    · obtain ⟨steps, reached⟩ := sound other behind
      exact ⟨steps, reached.congr equal⟩
  nearest := List.pairwise_iff_forall_sublist.mpr fun ordered steps reached =>
    reachedIn_of_sublist mentioned steps _ _ ordered reached
  discovered := by
    -- What was found are the mentioned paths in order, less those that were seen before.
    have listed := congrArg (List.map Path.parts) mentioned
    rw [map_parts_unseen] at listed
    rw [List.map_cons, List.map_cons, List.eraseDups_cons, listed]
    congr 2
    rw [List.removeAll]
    congr 1
    funext parts
    rw [Bool.eq_iff_iff]
    simp

end Order

/-! ### Bindings of the closure -/

theorem mem_bindingsAt {consumer : Path} {binding : LibraryBinding}
    (bound : binding ∈ bindingsAt index modules context consumer) :
    binding.consumer = consumer ∧ binding.className ∈ classesAt modules consumer := by
  rw [bindingsAt] at bound
  rw [classesAt]
  cases found : findModule? modules consumer with
  | none =>
    rw [found] at bound
    cases bound
  | some info =>
    rw [found] at bound
    obtain ⟨className, used, rfl⟩ := List.mem_map.mp bound
    exact ⟨rfl, used⟩

theorem exists_bindingsAt {consumer : Path} {className : String}
    (used : className ∈ classesAt modules consumer) :
    ∃ binding ∈ bindingsAt index modules context consumer, binding.className = className := by
  rw [classesAt] at used
  rw [bindingsAt]
  cases found : findModule? modules consumer with
  | none =>
    rw [found] at used
    cases used
  | some info =>
    rw [found] at used
    exact ⟨_, List.mem_map_of_mem used, rfl⟩

theorem nodup_classNames (consumer : Path)
    (distinct : ∀ info ∈ modules, info.libraryClasses.Nodup) :
    ((bindingsAt index modules context consumer).map LibraryBinding.className).Nodup := by
  rw [bindingsAt]
  cases found : findModule? modules consumer with
  | none => exact .nil
  | some info =>
    have names : (bindingsOf index context consumer info).map LibraryBinding.className =
        info.libraryClasses := by
      simp only [bindingsOf, List.map_map]
      exact List.map_id _
    exact names ▸ distinct info (List.mem_of_find?_eq_some found)

/-- Modules that differ have no binding in common, and neither have classes of one module. -/
theorem nodup_keys (order : List Path) (distinctPaths : (order.map Path.parts).Nodup)
    (distinct : ∀ info ∈ modules, info.libraryClasses.Nodup) :
    ((order.flatMap (bindingsAt index modules context)).map fun binding =>
      (binding.consumer.parts, binding.className)).Nodup := by
  rw [List.map_flatMap, List.nodup_flatMap]
  constructor
  · intro consumer _
    refine List.Nodup.of_map Prod.snd ?_
    rw [List.map_map]
    exact nodup_classNames consumer distinct
  · refine (List.pairwise_map.mp distinctPaths).imp fun {left right} different => ?_
    intro key own other
    obtain ⟨binding, bound, rfl⟩ := List.mem_map.mp own
    obtain ⟨bindingToo, boundToo, equal⟩ := List.mem_map.mp other
    rw [(mem_bindingsAt bound).1, (mem_bindingsAt boundToo).1] at equal
    exact different (Prod.mk.inj equal).1.symm

/-- The closure of a component has exactly one binding for each class of each loaded module that
the component reaches. All are made in the context of the component, and they are grouped by
module in the order of discovery. -/
theorem libraryClosure_reachable (index : SymbolIndex) (modules : List ModuleInfo)
    (component : Path) (context : ConsumerContext)
    (distinct : ∀ info ∈ modules, info.libraryClasses.Nodup) :
    let bindings := libraryClosure index modules component context
    (∀ consumer className,
      (∃ binding ∈ bindings, binding.consumer.same consumer = true ∧
        binding.className = className) ↔
          (∃ steps, ReachedIn index modules context component steps consumer) ∧
            className ∈ classesAt modules consumer) ∧
      (bindings.map fun binding => (binding.consumer.parts, binding.className)).Nodup ∧
      (∀ binding ∈ bindings, binding.context = context ∧
        binding.resolution = Library.resolve index binding.className context) ∧
      ∃ order, IsBreadthFirst index modules context component order ∧
        bindings = order.flatMap (bindingsAt index modules context) := by
  intro bindings
  have visits := visits_libraryClosure index modules context component
  obtain ⟨found, made, mentioned, sound⟩ := visits.exists_found
  have grouped : bindings =
      (component :: found).flatMap (bindingsAt index modules context) := made
  have breadthFirst := isBreadthFirst_of_mentioned mentioned
    (sound component fun path own => ⟨0, (Path.same_iff _ _).mpr
      (congrArg Path.parts (List.mem_singleton.mp own).symm)⟩)
  refine ⟨fun consumer className => ⟨?_, ?_⟩, ?_, visits.made_for, _, breadthFirst, grouped⟩
  · rintro ⟨binding, bound, same, rfl⟩
    rw [grouped] at bound
    obtain ⟨visited, inside, own⟩ := List.mem_flatMap.mp bound
    obtain ⟨rfl, used⟩ := mem_bindingsAt own
    have equal := (Path.same_iff _ _).mp same
    refine ⟨(breadthFirst.reached consumer).mp ?_, classesAt_congr equal ▸ used⟩
    exact equal ▸ List.mem_map_of_mem inside
  · rintro ⟨reached, used⟩
    obtain ⟨visited, inside, equal⟩ := List.mem_map.mp ((breadthFirst.reached consumer).mpr reached)
    rw [← classesAt_congr equal] at used
    obtain ⟨binding, own, rfl⟩ : ∃ binding ∈ bindingsAt index modules context visited,
        binding.className = className := exists_bindingsAt used
    refine ⟨binding, ?_, ?_, rfl⟩
    · rw [grouped]
      exact List.mem_flatMap.mpr ⟨visited, inside, own⟩
    · rw [(mem_bindingsAt own).1]
      exact (Path.same_iff _ _).mpr equal
  · -- No module is visited twice, and none names a class twice.
    rw [grouped]
    exact nodup_keys _ breadthFirst.distinct distinct

/-- A platform in which class `A` is bound to `A.inf`, and class `B` to `B.inf`. -/
def twoInstances : SymbolIndex :=
  SymbolIndex.empty.add ⟨0⟩ (["A", "B"].map fun name =>
    { kind := .libraryClass, name := name, value := name ++ ".inf", detail := name,
      file := ⟨0⟩, path := ⟨"/ws/P.dsc"⟩, line := 1, startColumn := 0, endColumn := 0,
      qualifiers := [.new "LibraryClasses" "" ""], owner := none,
      target := some ⟨"/ws/" ++ name ++ ".inf"⟩ })

/-- Two libraries that need each other, and a class without an instance. -/
def mutualModules : List ModuleInfo :=
  [("M", ["B"]), ("A", ["B"]), ("B", ["C", "A"])].map fun (name, classes) =>
    { ModuleInfo.empty ⟨"/ws/" ++ name ++ ".inf"⟩ with libraryClasses := classes }

theorem mutualModules_reached :
    let context := ConsumerContext.new "/ws/M.inf" "" ""
    let bindings := libraryClosure twoInstances mutualModules ⟨"/ws/M.inf"⟩ context
    (∀ info ∈ mutualModules, info.libraryClasses.Nodup) ∧
      bindings.map (fun binding => (binding.consumer.text, binding.className)) =
        [("/ws/M.inf", "B"), ("/ws/B.inf", "C"), ("/ws/B.inf", "A"), ("/ws/A.inf", "B")] ∧
      ∃ steps, ReachedIn twoInstances mutualModules context ⟨"/ws/M.inf"⟩ steps ⟨"/ws/A.inf"⟩ := by
  intro context bindings
  have distinct : ∀ info ∈ mutualModules, info.libraryClasses.Nodup := by decide +kernel
  have listed : bindings.map (fun binding => (binding.consumer.text, binding.className)) =
      [("/ws/M.inf", "B"), ("/ws/B.inf", "C"), ("/ws/B.inf", "A"), ("/ws/A.inf", "B")] := by
    decide +kernel
  refine ⟨distinct, listed, ?_⟩
  have last : ("/ws/A.inf", "B") ∈ bindings.map fun binding =>
      (binding.consumer.text, binding.className) := by
    rw [listed]
    decide
  obtain ⟨binding, bound, named⟩ := List.mem_map.mp last
  have spelled : binding.consumer = ⟨"/ws/A.inf"⟩ :=
    congrArg Path.mk (Prod.mk.inj named).1
  have ⟨exactly, _⟩ := libraryClosure_reachable twoInstances mutualModules ⟨"/ws/M.inf"⟩ context
    distinct
  exact ((exactly ⟨"/ws/A.inf"⟩ binding.className).mp ⟨binding, bound,
    (Path.same_iff _ _).mpr (congrArg Path.parts spelled), rfl⟩).1

end FirmwareWorkspace
