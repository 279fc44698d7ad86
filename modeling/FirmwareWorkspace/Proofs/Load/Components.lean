import FirmwareWorkspace.Proofs.Load.Fixpoint
import FirmwareWorkspace.Proofs.SymbolIndex.Lookup

/-!
# Components and the builds that the roots declare

A module is built once for every architecture that its entries among the components are
qualified with. An entry without an architecture stands for all that the platform supports, and
so does an entry outside of these sections, as long as no entry of the same module is within.
Entries overlap in many ways; every build is a component exactly once.

Main result: `LoadProgress.loadComponents_builds`.
-/
namespace FirmwareWorkspace

/-- An entry under a header of components that is qualified with an architecture. -/
def Symbol.IsListedFor (symbol : Symbol) (arch : String) : Prop :=
  ∃ qualifier ∈ symbol.qualifiers,
    qualifier.sectionType = Snapshot.componentsSection ∧ qualifier.arch = arch

theorem Path.eq_of_text {left right : Path} (texts : left.text = right.text) : left = right := by
  cases left
  cases right
  cases texts
  rfl

@[simp] theorem ConsumerContext.new_component (component arch moduleType : String) :
    (ConsumerContext.new component arch moduleType).component = component := by
  rw [ConsumerContext.new]

@[simp] theorem ConsumerContext.new_arch (component arch moduleType : String) :
    (ConsumerContext.new component arch moduleType).arch = Qualifier.restriction arch := by
  rw [ConsumerContext.new]

theorem ConsumerContext.eq_of_fields {left right : ConsumerContext}
    (component : left.component = right.component) (arch : left.arch = right.arch)
    (moduleType : left.moduleType = right.moduleType) : left = right := by
  cases left
  cases right
  cases component
  cases arch
  cases moduleType
  rfl

namespace Snapshot

variable (snapshot : Snapshot)

/-- The component entries of the root files. -/
def entries : List Symbol :=
  snapshot.symbols.symbols.filter (·.kind = .component)

/-- Whether the module with a key is built for an architecture. -/
def Builds (key arch : String) : Prop :=
  ∃ symbol ∈ snapshot.entries, ∃ path, symbol.target = some path ∧ symbol.key = key ∧
    (arch ≠ wildcard ∧ symbol.IsListedFor arch ∨
      (symbol.IsListedFor wildcard ∨
        ∀ other ∈ snapshot.entries, other.target = some path → ∀ any, ¬ other.IsListedFor any) ∧
      (arch ∈ snapshot.supportedArchitectures.map Qualifier.restriction ∨
        snapshot.supportedArchitectures = [] ∧ arch = wildcard))

/-- An entry of a module declares it for the architectures that it is listed for. If no entry of
the module is listed, each one declares it for the wildcard. -/
def Declares (symbol : Symbol) (path : Path) (arch : String) : Prop :=
  symbol.IsListedFor arch ∨
    arch = wildcard ∧ ∀ other ∈ snapshot.entries, other.target = some path →
      ∀ any, ¬ other.IsListedFor any

/-- A declared architecture stands for itself, and the wildcard for all that are supported. -/
def StandsFor (supported : List String) (declared arch : String) : Prop :=
  arch ≠ wildcard ∧ declared = arch ∨
    declared = wildcard ∧
      (arch ∈ supported.map Qualifier.restriction ∨ supported = [] ∧ arch = wildcard)

/-- Builds come from what entries declare. -/
theorem builds_iff (key arch : String) :
    snapshot.Builds key arch ↔
      ∃ symbol ∈ snapshot.entries, ∃ path, symbol.target = some path ∧ symbol.key = key ∧
        ∃ declared, snapshot.Declares symbol path declared ∧
          StandsFor snapshot.supportedArchitectures declared arch := by
  constructor
  · rintro ⟨symbol, listed, path, aimed, keyed, ⟨proper, among⟩ | ⟨general, supported⟩⟩
    · exact ⟨symbol, listed, path, aimed, keyed, arch, .inl among, .inl ⟨proper, rfl⟩⟩
    · exact ⟨symbol, listed, path, aimed, keyed, wildcard,
        general.imp_right fun free => ⟨rfl, free⟩, .inr ⟨rfl, supported⟩⟩
  · rintro ⟨symbol, listed, path, aimed, keyed, declared, declares, named⟩
    refine ⟨symbol, listed, path, aimed, keyed, ?_⟩
    rcases named with ⟨proper, rfl⟩ | ⟨rfl, supported⟩
    · -- Only a listed architecture is not the wildcard.
      exact .inl ⟨proper, declares.resolve_right fun ⟨general, _⟩ => proper general⟩
    · exact .inr ⟨declares.imp_right And.right, supported⟩

/-! ### Declarations -/

theorem mem_platformDeclarations (symbol : Symbol) (declaration : Declaration) :
    declaration ∈ platformDeclarations symbol ↔
      symbol.target = some declaration.path ∧ declaration.declaredAt = symbol.location ∧
        declaration.key = symbol.key ∧ symbol.IsListedFor declaration.arch := by
  cases declaration with
  | mk path declaredAt key arch =>
    simp only [platformDeclarations, List.mem_flatMap, Option.mem_toList, List.mem_map,
      List.mem_filter, decide_eq_true_eq, Declaration.mk.injEq, Symbol.IsListedFor]
    constructor
    · rintro ⟨target, aimed, qualifier, ⟨listed, among⟩, rfl, rfl, rfl, rfl⟩
      exact ⟨aimed, rfl, rfl, qualifier, listed, among, rfl⟩
    · rintro ⟨aimed, rfl, rfl, qualifier, listed, among, rfl⟩
      exact ⟨path, aimed, qualifier, ⟨listed, among⟩, rfl, rfl, rfl, rfl⟩

theorem flashDeclaration_eq_some_iff (symbol : Symbol) (declaration : Declaration) :
    flashDeclaration? symbol = some declaration ↔
      symbol.target = some declaration.path ∧ declaration.declaredAt = symbol.location ∧
        declaration.key = symbol.key ∧ declaration.arch = wildcard ∧
        ∀ arch, ¬ symbol.IsListedFor arch := by
  have unlisted : symbol.qualifiers.any (·.sectionType = componentsSection) = true ↔
      ¬ ∀ arch, ¬ symbol.IsListedFor arch := by
    simp only [List.any_eq_true, decide_eq_true_eq, Symbol.IsListedFor, not_forall, not_not]
    constructor
    · rintro ⟨qualifier, listed, among⟩
      exact ⟨_, qualifier, listed, among, rfl⟩
    · rintro ⟨_, qualifier, listed, among, -⟩
      exact ⟨qualifier, listed, among⟩
  cases declaration with
  | mk path declaredAt key arch =>
    simp only [flashDeclaration?, unlisted, Option.bind_eq_some_iff, Option.ite_none_left_eq_some,
      not_not, Option.some.injEq, Declaration.mk.injEq]
    constructor
    · rintro ⟨target, aimed, free, rfl, rfl, rfl, rfl⟩
      exact ⟨aimed, rfl, rfl, rfl, free⟩
    · rintro ⟨aimed, rfl, rfl, rfl, free⟩
      exact ⟨path, aimed, free, rfl, rfl, rfl, rfl⟩

theorem key_of_target (symbol : Symbol) (path : Path) (aimed : symbol.target = some path) :
    symbol.key = path.normalize.text := by
  rw [Symbol.key, aimed]

section Declared

variable {snapshot : Snapshot} (exact : snapshot.symbols.IsExact)
include exact

theorem mem_declaredComponents (declaration : Declaration)
    (member : declaration ∈ snapshot.declaredComponents) :
    ∃ symbol ∈ snapshot.entries, symbol.target = some declaration.path ∧
      symbol.key = declaration.key ∧
      snapshot.Declares symbol declaration.path declaration.arch := by
  unfold declaredComponents at member
  rw [exact.answersAs.ofKind] at member
  rcases Registry.fresh_of_mem_addAllNew _ _ _ declaration member with platform | ⟨flash, fresh⟩
  · obtain ⟨symbol, listed, declared⟩ := List.mem_flatMap.mp platform
    obtain ⟨aimed, -, key, among⟩ := (mem_platformDeclarations _ _).mp declared
    exact ⟨symbol, listed, aimed, key.symm, .inl among⟩
  · obtain ⟨symbol, listed, declared⟩ := List.mem_filterMap.mp flash
    obtain ⟨aimed, -, key, arch, -⟩ := (flashDeclaration_eq_some_iff _ _).mp declared
    refine ⟨symbol, listed, aimed, key.symm, .inr ⟨arch, fun other there same any among => ?_⟩⟩
    -- An entry of the same module among the components would have come first.
    have earlier := fresh ⟨declaration.path, other.location, other.key, any⟩
      (List.mem_flatMap.mpr ⟨other, there, (mem_platformDeclarations _ _).mpr
        ⟨same, rfl, rfl, among⟩⟩)
    exact absurd earlier (by simp)

theorem exists_declared (symbol : Symbol) (listed : symbol ∈ snapshot.entries) (path : Path)
    (aimed : symbol.target = some path) (arch : String)
    (declares : snapshot.Declares symbol path arch) :
    ∃ declaration ∈ snapshot.declaredComponents,
      declaration.key = symbol.key ∧ declaration.arch = arch := by
  unfold declaredComponents
  rw [exact.answersAs.ofKind]
  rcases declares with among | ⟨rfl, free⟩
  · refine ⟨⟨path, symbol.location, symbol.key, arch⟩, ?_, rfl, rfl⟩
    exact Registry.mem_addAllNew_of_mem _ _ _ _ (List.mem_flatMap.mpr ⟨symbol, listed,
      (mem_platformDeclarations _ _).mpr ⟨aimed, rfl, rfl, among⟩⟩)
  · -- Some declaration of the path is kept, and none is among the components.
    have kept : path ∈ (Registry.addAllNew (·.path == ·.path)
        (snapshot.entries.flatMap platformDeclarations)
        (snapshot.entries.filterMap flashDeclaration?)).map (·.path) := by
      rw [Registry.map_addAllNew Declaration.path, Registry.mem_addAllNew_iff]
      refine .inr (List.mem_map.mpr ⟨⟨path, symbol.location, symbol.key, wildcard⟩, ?_, rfl⟩)
      exact List.mem_filterMap.mpr ⟨symbol, listed, (flashDeclaration_eq_some_iff _ _).mpr
        ⟨aimed, rfl, rfl, rfl, free symbol listed aimed⟩⟩
    obtain ⟨declaration, member, same⟩ := List.mem_map.mp kept
    rcases Registry.mem_addAllNew _ _ _ _ member with platform | flash
    · obtain ⟨other, there, declared⟩ := List.mem_flatMap.mp platform
      obtain ⟨aimedToo, -, -, among⟩ := (mem_platformDeclarations _ _).mp declared
      exact absurd among (free other there (same ▸ aimedToo) _)
    · obtain ⟨other, there, declared⟩ := List.mem_filterMap.mp flash
      obtain ⟨aimedToo, -, key, general, -⟩ := (flashDeclaration_eq_some_iff _ _).mp declared
      rw [same] at aimedToo
      refine ⟨declaration, member, ?_, general⟩
      rw [key, key_of_target other path aimedToo, key_of_target symbol path aimed]

end Declared

/-! ### Architectures -/

theorem mem_archsOf_iff (supported : List String) (declaration : Declaration)
    (stored : Qualifier.restriction declaration.arch = declaration.arch) (arch : String) :
    arch ∈ (archsOf supported declaration).map Qualifier.restriction ↔
      StandsFor supported declaration.arch arch := by
  unfold archsOf StandsFor
  split
  next general =>
    obtain ⟨wild, some⟩ := general
    simp only [wild, some, true_and, false_and, or_false]
    refine ⟨.inr, fun either => either.resolve_left ?_⟩
    exact fun ⟨proper, same⟩ => proper same.symm
  next plain =>
    rw [not_and_or, not_not] at plain
    rw [List.map_singleton, List.mem_singleton, stored]
    constructor
    · rintro rfl
      by_cases wild : declaration.arch = wildcard
      · exact .inr ⟨wild, .inr ⟨plain.resolve_left fun other => other wild, wild⟩⟩
      · exact .inl ⟨wild, rfl⟩
    · rintro (⟨-, same⟩ | ⟨wild, named | ⟨-, rfl⟩⟩)
      · exact same.symm
      · -- Nothing is supported, so the architecture is not named.
        rw [plain.resolve_left fun other => other wild] at named
        cases named
      · exact wild.symm

theorem context_mem_componentContexts_iff (declared : List Declaration)
    (context : ConsumerContext) :
    context ∈ (snapshot.componentContexts declared).map (·.context) ↔
      ∃ declaration ∈ declared, ∃ arch ∈ archsOf snapshot.supportedArchitectures declaration,
        ConsumerContext.new declaration.key arch (snapshot.moduleTypeOf declaration.path) =
          context := by
  unfold componentContexts
  dsimp only
  rw [Registry.map_addAllNew Component.context, Registry.mem_addAllNew_iff]
  simp only [List.map_nil, List.not_mem_nil, false_or, List.map_flatMap, List.mem_flatMap,
    List.map_map, Function.comp_def, List.mem_map]

theorem nodup_componentContexts (declared : List Declaration) :
    ((snapshot.componentContexts declared).map (·.context)).Nodup := by
  unfold componentContexts
  dsimp only
  rw [Registry.map_addAllNew Component.context]
  exact Registry.nodup_addAllNew _ _ List.nodup_nil

/-- A component is a declaration for one of its architectures. -/
theorem mem_componentContexts (declared : List Declaration) (component : Component)
    (member : component ∈ snapshot.componentContexts declared) :
    ∃ declaration ∈ declared, component.path = declaration.path ∧
      ∃ arch, component.context =
        .new declaration.key arch (snapshot.moduleTypeOf declaration.path) := by
  have built := (Registry.mem_addAllNew _ _ _ component member).resolve_left List.not_mem_nil
  obtain ⟨declaration, listed, here⟩ := List.mem_flatMap.mp built
  obtain ⟨arch, -, rfl⟩ := List.mem_map.mp here
  exact ⟨declaration, listed, rfl, arch, rfl⟩

variable {snapshot}

/-- Whatever is declared is in the form of stored qualifiers. -/
theorem Declares.restriction_eq {symbol : Symbol} {path : Path} {arch : String}
    (declares : snapshot.Declares symbol path arch)
    (stored : ∀ qualifier ∈ symbol.qualifiers, qualifier.IsStored) :
    Qualifier.restriction arch = arch := by
  rcases declares with ⟨qualifier, inside, -, rfl⟩ | ⟨rfl, -⟩
  · exact (stored qualifier inside).restriction_arch
  · exact Qualifier.restriction_wildcard

/-- The builds that are declared are built, whatever modules are loaded in between. -/
theorem exists_context_iff (exact : snapshot.symbols.IsExact)
    (stored : ∀ symbol ∈ snapshot.entries, ∀ qualifier ∈ symbol.qualifiers, qualifier.IsStored)
    (later : Snapshot) (rooted : later.supportedArchitectures = snapshot.supportedArchitectures)
    (key arch : String) :
    (∃ component ∈ later.componentContexts snapshot.declaredComponents,
      component.context.component = key ∧ component.context.arch = arch) ↔
      snapshot.Builds key arch := by
  rw [builds_iff, ← rooted]
  constructor
  · rintro ⟨component, member, rfl, rfl⟩
    -- A context stands for a declaration and one of its architectures.
    have held := List.mem_map_of_mem (f := Component.context) member
    obtain ⟨declaration, declared, arch, named, same⟩ :=
      (context_mem_componentContexts_iff _ _ _).mp held
    obtain ⟨symbol, listed, aimed, key, declares⟩ := mem_declaredComponents exact _ declared
    have unchanged := declares.restriction_eq (stored symbol listed)
    have stands := (mem_archsOf_iff _ declaration unchanged _).mp (List.mem_map_of_mem named)
    rw [← same, ConsumerContext.new_component, ConsumerContext.new_arch]
    exact ⟨symbol, listed, declaration.path, aimed, key, declaration.arch, declares, stands⟩
  · rintro ⟨symbol, listed, path, aimed, rfl, declared, declares, stands⟩
    have unchanged := declares.restriction_eq (stored symbol listed)
    obtain ⟨declaration, member, key, rfl⟩ :=
      exists_declared exact symbol listed path aimed declared declares
    obtain ⟨spelled, named, same⟩ :=
      List.mem_map.mp ((mem_archsOf_iff _ declaration unchanged arch).mpr stands)
    obtain ⟨component, built, context⟩ := List.mem_map.mp
      ((context_mem_componentContexts_iff later _ _).mpr ⟨declaration, member, spelled, named, rfl⟩)
    refine ⟨component, built, ?_, ?_⟩
    · rw [context, ConsumerContext.new_component, key]
    · rw [context, ConsumerContext.new_arch, same]

/-- The context of a component has the key of its module, and the type of the module. -/
theorem context_of_component (exact : snapshot.symbols.IsExact)
    (normal : ∀ declaration ∈ snapshot.declaredComponents,
      declaration.path.normalize = declaration.path)
    (later : Snapshot) (component : Component)
    (member : component ∈ later.componentContexts snapshot.declaredComponents) :
    component.context.component = component.path.text ∧
      component.context.moduleType =
        match (findModule? later.modules component.path).bind (·.moduleType) with
        | some moduleType => Qualifier.restriction moduleType
        | none => wildcard := by
  obtain ⟨declaration, declared, path, arch, context⟩ :=
    later.mem_componentContexts _ component member
  obtain ⟨symbol, _, aimed, key, _⟩ := mem_declaredComponents exact _ declared
  rw [context, path, ConsumerContext.new]
  constructor
  · rw [← key, key_of_target symbol _ aimed, normal declaration declared]
  · rw [moduleTypeOf]
    cases (findModule? later.modules declaration.path).bind (·.moduleType) with
    | none => exact Qualifier.restriction_wildcard
    | some moduleType => rw [Option.getD_some]

/-- No module is built twice for one architecture. -/
theorem component_unique (exact : snapshot.symbols.IsExact)
    (normal : ∀ declaration ∈ snapshot.declaredComponents,
      declaration.path.normalize = declaration.path)
    (later : Snapshot) (left right : Component)
    (here : left ∈ later.componentContexts snapshot.declaredComponents)
    (there : right ∈ later.componentContexts snapshot.declaredComponents)
    (keys : left.context.component = right.context.component)
    (archs : left.context.arch = right.context.arch) : left = right := by
  have ⟨leftKey, leftType⟩ := context_of_component exact normal later left here
  have ⟨rightKey, rightType⟩ := context_of_component exact normal later right there
  -- The key is the path, which decides the module type.
  have path : left.path = right.path := Path.eq_of_text (leftKey.symm.trans (keys.trans rightKey))
  have types : left.context.moduleType = right.context.moduleType := by
    rw [leftType, rightType, path]
  exact List.inj_on_of_nodup_map (later.nodup_componentContexts _) here there
    (ConsumerContext.eq_of_fields keys archs types)

end Snapshot

/-! ### The roots of a load -/

theorem loadRoots_isExact (source : LoadSource) (progress final : LoadProgress)
    (roots : List Path) (exact : progress.snapshot.symbols.IsExact)
    (complete : progress.loadRoots source roots = .complete final) :
    final.snapshot.symbols.IsExact := by
  have folded (documents : List Document) (snapshot : Snapshot)
      (exact : snapshot.symbols.IsExact) :
      (documents.foldl Snapshot.addDocument snapshot).symbols.IsExact := by
    induction documents generalizing snapshot with
    | nil => exact exact
    | cons document rest ih => exact ih _ (exact.add _ _)
  refine LoadProgress.keeps_of_complete (motive := (·.snapshot.symbols.IsExact)) source ?_ exact
    complete
  exact fun _ _ _ reader _ exact => folded reader.documents _ exact

/-- The components of a load are the builds that its roots declare, each once. The context of a
component has the key of its module, and the module type if the module was loaded and has one. -/
theorem LoadProgress.loadComponents_builds (source : LoadSource) (generation : Nat)
    (roots : List Path) (progress : LoadProgress)
    (complete : (LoadProgress.start generation roots).loadRoots source roots =
      .complete progress) :
    let loaded := (progress.loadComponents source).1.snapshot
    (loaded.components.map (·.context)).Nodup ∧
      (∀ left ∈ loaded.components, ∀ right ∈ loaded.components,
        left.context.component = right.context.component →
        left.context.arch = right.context.arch → left = right) ∧
      (∀ key arch, (∃ component ∈ loaded.components,
          component.context.component = key ∧ component.context.arch = arch) ↔
        progress.snapshot.Builds key arch) ∧
      ∀ component ∈ loaded.components,
        component.context.component = component.path.text ∧
          component.context.moduleType =
            match (findModule? loaded.modules component.path).bind (·.moduleType) with
            | some moduleType => Qualifier.restriction moduleType
            | none => wildcard := by
  intro loaded
  have ⟨rooted, _⟩ := isTrue_of_complete source generation roots progress complete
  have exact := loadRoots_isExact source _ progress roots SymbolIndex.isExact_empty complete
  have stored (symbol : Symbol) (listed : symbol ∈ progress.snapshot.entries) :
      ∀ qualifier ∈ symbol.qualifiers, qualifier.IsStored := by
    unfold Snapshot.entries at listed
    rw [← exact.answersAs.ofKind] at listed
    have held := progress.snapshot.symbols.mem_slots_of_collect _ symbol listed
    exact (rooted.reflects.isSound _ _ _ _ _ symbol held).qualifiers
  have normal (declaration : Snapshot.Declaration) :=
    rooted.normalize_of_declared declaration
  -- The modules are read in between, which leaves the roots alone.
  let read := (progress.loadWave source (unseen [] (progress.snapshot.declaredComponents.map
    (·.path))) Snapshot.absorbModule).snapshot
  have roots : read.roots = progress.snapshot.roots :=
    LoadProgress.view_loadWave _ _ (·.roots) _ _ (fun _ _ => rfl) fun _ _ =>
      view_absorb (·.roots) (fun _ _ _ _ _ => rfl) _ _ _ _
  have supported : read.supportedArchitectures = progress.snapshot.supportedArchitectures := by
    rw [Snapshot.supportedArchitectures, Snapshot.supportedArchitectures, Snapshot.definition?,
      Snapshot.definition?, roots]
  exact ⟨read.nodup_componentContexts _,
    fun left here right there => Snapshot.component_unique exact normal read left right here there,
    Snapshot.exists_context_iff exact stored read supported,
    Snapshot.context_of_component exact normal read⟩

/-- A platform with a module for one architecture, and a flash layout that places another one. -/
def flashSource : LoadSource where
  config := { Configuration.initial with workspaceRoot := ⟨"/ws"⟩ }
  system := .memory (.ofList [
    (⟨"/ws/P.dsc"⟩, "[Defines]\nSUPPORTED_ARCHITECTURES = IA32|COMMON\n[Components.X64]\nM.inf\n"),
    (⟨"/ws/P.fdf"⟩, "[FV]\nINF F.inf\n"), (⟨"/ws/M.inf"⟩, ""), (⟨"/ws/F.inf"⟩, "")])
  cancellation := .never

def flashRoots : List Path :=
  [⟨"/ws/P.dsc"⟩, ⟨"/ws/P.fdf"⟩]

def flashContexts : List ConsumerContext :=
  [⟨"/ws/M.inf", "x64", "*"⟩, ⟨"/ws/F.inf", "ia32", "*"⟩, ⟨"/ws/F.inf", "*", "*"⟩]

/-- The module that is only placed is built for what the platform supports. -/
theorem flashSource_builds :
    ∃ progress, (LoadProgress.start 1 flashRoots).loadRoots flashSource flashRoots =
        .complete progress ∧
      (progress.loadComponents flashSource).1.snapshot.components.map (·.context) =
        flashContexts ∧
      progress.snapshot.Builds "/ws/F.inf" "ia32" ∧
      ¬ progress.snapshot.Builds "/ws/F.inf" "x64" := by
  -- The contexts are computed, and what is built follows from them by the theorem.
  have computed : (match (LoadProgress.start 1 flashRoots).loadRoots flashSource flashRoots with
      | .complete progress =>
        (progress.loadComponents flashSource).1.snapshot.components.map Component.context
      | _ => []) = flashContexts := by
    decide +kernel
  cases complete : (LoadProgress.start 1 flashRoots).loadRoots flashSource flashRoots with
  | complete progress =>
    rw [complete] at computed
    obtain ⟨_, _, builds, _⟩ :=
      LoadProgress.loadComponents_builds flashSource 1 flashRoots progress complete
    refine ⟨progress, rfl, computed, (builds _ _).mp ?_, fun built => ?_⟩
    · have placed : ⟨"/ws/F.inf", "ia32", "*"⟩ ∈ flashContexts := by decide +kernel
      rw [← computed] at placed
      obtain ⟨component, member, context⟩ := List.mem_map.mp placed
      exact ⟨component, member, by rw [context], by rw [context]⟩
    · obtain ⟨component, member, key, arch⟩ := (builds _ _).mpr built
      have other : ∀ context ∈ flashContexts,
          ¬(context.component = "/ws/F.inf" ∧ context.arch = "x64") := by
        decide +kernel
      rw [← computed] at other
      exact other _ (List.mem_map_of_mem member) ⟨key, arch⟩
  | cancelled progress =>
    rw [complete] at computed
    cases computed
  | failed progress error =>
    rw [complete] at computed
    cases computed

end FirmwareWorkspace
