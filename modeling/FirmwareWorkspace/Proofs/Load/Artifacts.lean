import FirmwareWorkspace.Artifact
import FirmwareWorkspace.Proofs.Library.Reachable
import FirmwareWorkspace.Proofs.Load.Fixpoint
import FirmwareWorkspace.Proofs.Path.Order

/-!
# What artifacts list

A component reaches its own module and, through the bindings that were made for it, further
modules. The modules of a build are the loaded ones among these, and the artifacts of a
snapshot list the files and the compile commands of the build, each once and in order.

That the artifacts take every binding of the snapshot, wherever it leads from, makes no
difference: a binding is made only where its consumer has been reached.

Main result: `Workspace.load_artifacts`, for all loads that are not cancelled.
-/
namespace FirmwareWorkspace

/-! ### Builds -/

namespace Snapshot

variable (snapshot : Snapshot)

/-- The paths that a component reaches through the bindings that were made for it. -/
inductive Reaches (component : Component) : Path → Prop
  | own : Reaches component component.path
  | bound {binding : LibraryBinding} {symbol : Symbol} {target : Path}
      (consumer : Reaches component binding.consumer) (made : binding ∈ snapshot.bindings)
      (context : binding.context = component.context)
      (found : binding.resolution = .found symbol) (aimed : symbol.target = some target) :
      Reaches component target

/-- A loaded module that is a component or is reached from one. -/
def Needs (info : ModuleInfo) : Prop :=
  ∃ component ∈ snapshot.components, ∃ path, snapshot.Reaches component path ∧
    findModule? snapshot.modules path = some info

/-- A file that belongs to the build. -/
def Uses (path : Path) : Prop :=
  (∃ document ∈ snapshot.documents, (document.dialect = .dsc ∨ document.dialect = .fdf) ∧
    document.path = path) ∨
  ∃ info, snapshot.Needs info ∧ (path = info.path ∨ path ∈ info.sources ∨ path ∈ info.packages)

/-- The include directories of the loaded packages that a module names. -/
def exportedTo (info : ModuleInfo) : List Path :=
  (info.packages.filterMap fun package => snapshot.packages.find? (·.path.same package)).flatMap
    (·.includeDirectories)

/-- Where the sources of a module find headers: in its own directory, then in each of the
others, where it is mentioned first. -/
def headerDirectories (info : ModuleInfo) : List Path :=
  info.directory :: ((snapshot.exportedTo info).filter (!info.directory.same ·)).eraseDupsBy
    Path.same

end Snapshot

/-- A source in C or C++. -/
def Path.IsCompiled (path : Path) : Prop :=
  ∃ extension, path.extension? = some extension ∧ Text.lower extension ∈ ["c", "cpp", "cc"]

/-- A command for a source of a module. -/
structure CompileCommand.Compiles (config : Configuration) (snapshot : Snapshot)
    (info : ModuleInfo) (made : CompileCommand) : Prop where
  directory : made.directory = info.directory
  source : made.file ∈ info.sources
  compiled : made.file.IsCompiled
  command : made.command = " ".intercalate (config.compiler :: config.compilerFlags ++
    (snapshot.headerDirectories info).map (fun directory => "-I" ++ directory.text) ++
      ["-c", made.file.text])

/-! ### Modules of a build -/

theorem LibraryBinding.target_eq_some_iff (binding : LibraryBinding) (target : Path) :
    binding.target? = some target ↔
      ∃ symbol, binding.resolution = .found symbol ∧ symbol.target = some target := by
  unfold LibraryBinding.target?
  cases binding.resolution <;> simp [LibraryResolution.symbol?]

/-- Bindings are made for modules that have been reached. -/
theorem Visits.reaches {index : SymbolIndex} {modules : List ModuleInfo}
    {context : ConsumerContext} {queue seen : List Path} {bindings : List LibraryBinding}
    (visits : Visits index modules context queue seen bindings) (snapshot : Snapshot)
    (component : Component) (same : context = component.context)
    (kept : bindings ⊆ snapshot.bindings)
    (queued : ∀ path ∈ queue, snapshot.Reaches component path) (binding : LibraryBinding)
    (bound : binding ∈ bindings) : snapshot.Reaches component binding.consumer := by
  -- The queue holds nothing but what has been reached.
  induction visits with
  | done => cases bound
  | skip _ _ ih => exact ih kept (fun path later => queued path (.tail _ later)) bound
  | @visit consumer queue seen info rest _ _ ih =>
    have reached := queued consumer (.head _)
    rcases List.mem_append.mp bound with own | later
    · obtain ⟨_, _, rfl⟩ := List.mem_map.mp own
      exact reached
    · refine ih (fun _ inside => kept (List.mem_append_right _ inside)) (fun path member => ?_)
        later
      rcases List.mem_append.mp member with waiting | found
      · exact queued path (.tail _ waiting)
      · -- The visit binds what it finds, in the context of the component.
        obtain ⟨other, made, leads⟩ := List.mem_filterMap.mp ((unseen_sublist _ _).subset found)
        obtain ⟨symbol, resolved, aimed⟩ := (other.target_eq_some_iff path).mp leads
        have there := kept (List.mem_append_left _ made)
        obtain ⟨_, _, rfl⟩ := List.mem_map.mp made
        exact .bound reached there same resolved aimed

/-- The bindings are those that the components make among the modules. -/
def Snapshot.IsBound (snapshot : Snapshot) (index : SymbolIndex) : Prop :=
  snapshot.bindings = snapshot.components.flatMap fun component =>
    libraryClosure index snapshot.modules component.path component.context

namespace Snapshot.IsBound

variable {snapshot : Snapshot} {index : SymbolIndex} (isBound : snapshot.IsBound index)
include isBound

theorem reaches_target (binding : LibraryBinding) (made : binding ∈ snapshot.bindings)
    (target : Path) (leads : binding.target? = some target) :
    ∃ component ∈ snapshot.components, snapshot.Reaches component target := by
  have there := made
  rw [isBound] at there
  obtain ⟨component, member, own⟩ := List.mem_flatMap.mp there
  have visits := visits_libraryClosure index snapshot.modules component.context component.path
  have kept : libraryClosure index snapshot.modules component.path component.context ⊆
      snapshot.bindings := by
    rw [isBound]
    exact fun _ inside => List.mem_flatMap.mpr ⟨component, member, inside⟩
  have reached : snapshot.Reaches component binding.consumer :=
    visits.reaches snapshot component rfl kept
      (fun path queued => List.mem_singleton.mp queued ▸ .own) binding own
  obtain ⟨symbol, found, aimed⟩ := (binding.target_eq_some_iff target).mp leads
  exact ⟨component, member, .bound reached made (visits.made_for binding own).1 found aimed⟩

/-- The artifacts are made for the modules of the build. -/
theorem mem_modulesInUse_iff (info : ModuleInfo) :
    info ∈ Artifact.modulesInUse snapshot ↔ snapshot.Needs info := by
  rw [Artifact.modulesInUse, List.mem_filterMap]
  constructor
  · rintro ⟨path, listed, loaded⟩
    rcases List.mem_append.mp (Ascending.mem_of_mem_ofList _ _ listed) with own | bound
    · obtain ⟨component, member, rfl⟩ := List.mem_map.mp own
      exact ⟨component, member, _, .own, loaded⟩
    · obtain ⟨binding, made, leads⟩ := List.mem_filterMap.mp bound
      obtain ⟨component, member, reached⟩ := isBound.reaches_target binding made path leads
      exact ⟨component, member, path, reached, loaded⟩
  · rintro ⟨component, member, path, reached, loaded⟩
    have gathered : path ∈ snapshot.components.map (·.path) ++
        snapshot.bindings.filterMap LibraryBinding.target? := by
      cases reached with
      | own => exact List.mem_append_left _ (List.mem_map_of_mem member)
      | @bound binding symbol _ _ made _ found aimed =>
        exact List.mem_append_right _ (List.mem_filterMap.mpr
          ⟨binding, made, (binding.target_eq_some_iff path).mpr ⟨symbol, found, aimed⟩⟩)
    -- Of several spellings of the path one is listed, and it leads to the same module.
    obtain ⟨listed, there, same⟩ := Path.before_isBy.exists_of_mem _ path gathered
    have equal := (Path.same_iff _ _).mp ((Path.same_iff_key _ _).mpr same)
    exact ⟨listed, there, (findModule_congr equal).trans loaded⟩

end Snapshot.IsBound

/-! ### Compile commands -/

theorem Text.sameLetters_iff (left right : String) :
    sameLetters left right = true ↔ lower left = lower right := by
  rw [sameLetters, Chars.sameLetters, beq_iff_eq, lower, lower, String.ofList_inj]

theorem Artifact.isCompiled_iff (source : Path) :
    isCompiled source = true ↔ source.IsCompiled := by
  have small : ∀ extension ∈ ["c", "cpp", "cc"], Text.lower extension = extension := by
    decide +kernel
  simp only [isCompiled, List.any_eq_true, Path.hasExtension, Option.any_eq_true,
    Text.sameLetters_iff, Path.IsCompiled]
  constructor
  · rintro ⟨known, member, extension, ends, same⟩
    refine ⟨extension, ends, ?_⟩
    rw [← same, small known member]
    exact member
  · rintro ⟨extension, ends, member⟩
    exact ⟨_, member, extension, ends, small _ member⟩

theorem Artifact.includeDirectories_eq (snapshot : Snapshot) (info : ModuleInfo) :
    includeDirectories snapshot info = snapshot.headerDirectories info := by
  have exported : (info.packages.flatMap fun package =>
      ((snapshot.packages.find? (·.path.same package)).map (·.includeDirectories)).getD []) =
        snapshot.exportedTo info := by
    -- A package that is not loaded exports nothing.
    rw [Snapshot.exportedTo]
    induction info.packages with
    | nil => rfl
    | cons package rest ih =>
      rw [List.flatMap_cons, ih, List.filterMap_cons]
      cases snapshot.packages.find? (·.path.same package) <;> rfl
  rw [includeDirectories, exported]
  refine (Registry.addAllNew_eq_eraseDupsBy Path.parts [info.directory] _).trans ?_
  simp only [List.any_cons, List.any_nil, Bool.or_false]
  rfl

theorem Artifact.mem_moduleCommands_iff (config : Configuration) (snapshot : Snapshot)
    (info : ModuleInfo) (made : CompileCommand) :
    made ∈ moduleCommands config snapshot info ↔ made.Compiles config snapshot info := by
  rw [moduleCommands, List.mem_map]
  constructor
  · rintro ⟨source, member, rfl⟩
    have ⟨listed, compiled⟩ := List.mem_filter.mp member
    refine ⟨rfl, listed, (isCompiled_iff source).mp compiled, ?_⟩
    rw [← includeDirectories_eq]
    rfl
  · intro compiles
    refine ⟨made.file,
      List.mem_filter.mpr ⟨compiles.source, (isCompiled_iff _).mpr compiles.compiled⟩, ?_⟩
    rw [command, includeDirectories_eq, ← compiles.directory, ← compiles.command]

namespace CompileCommand

/-- Where a command stands among others. -/
def key (command : CompileCommand) :
    List (ℕ ×ₗ String) ×ₗ List (ℕ ×ₗ String) ×ₗ String :=
  toLex (command.file.key, toLex (command.directory.key, command.command))

theorem before_isBy : Ascending.IsBy before key := by
  intro left right
  simp only [before, key, Prod.Lex.toLex_lt_toLex, Bool.or_eq_true, Bool.and_eq_true,
    Path.same_iff_key, decide_eq_true_eq]
  rw [Path.before_isBy, Path.before_isBy]

end CompileCommand

/-! ### Artifacts of a load -/

/-- The artifacts of a snapshot are in order and list what belongs to the build and nothing
else. -/
structure Snapshot.IsListed (config : Configuration) (snapshot : Snapshot) : Prop where
  filesAscend : (Artifact.filesInUse snapshot).Pairwise fun earlier later =>
    earlier.before later = true
  used : ∀ path ∈ Artifact.filesInUse snapshot, snapshot.Uses path
  listed : ∀ path, snapshot.Uses path →
    ∃ other ∈ Artifact.filesInUse snapshot, other.same path = true
  /-- By file, then by directory; commands that agree in both differ. -/
  commandsAscend : (Artifact.compileDatabase config snapshot).Pairwise fun earlier later =>
    earlier.file.before later.file = true ∨ earlier.file.same later.file = true ∧
      (earlier.directory.before later.directory = true ∨
        earlier.directory.same later.directory = true ∧ earlier.command < later.command)
  compiled : ∀ command ∈ Artifact.compileDatabase config snapshot,
    ∃ info, snapshot.Needs info ∧ command.Compiles config snapshot info
  commanded : ∀ info (command : CompileCommand), snapshot.Needs info →
    command.Compiles config snapshot info →
    ∃ other ∈ Artifact.compileDatabase config snapshot, other.file.same command.file = true ∧
      other.directory.same command.directory = true ∧ other.command = command.command

theorem Snapshot.IsBound.mem_gathered_iff {snapshot : Snapshot} {index : SymbolIndex}
    (isBound : snapshot.IsBound index) (path : Path) :
    path ∈ (snapshot.documents.filter fun document =>
        document.dialect = .dsc ∨ document.dialect = .fdf).map (·.path) ++
      (Artifact.modulesInUse snapshot).flatMap (fun info =>
        info.path :: info.sources ++ info.packages) ↔ snapshot.Uses path := by
  simp only [List.mem_append, List.mem_map, List.mem_filter, decide_eq_true_eq,
    List.mem_flatMap, List.mem_cons, isBound.mem_modulesInUse_iff, Snapshot.Uses, or_assoc,
    and_assoc]

theorem Snapshot.IsBound.isListed {snapshot : Snapshot} {index : SymbolIndex}
    (isBound : snapshot.IsBound index) (config : Configuration) : snapshot.IsListed config where
  filesAscend := Path.before_isBy.pairwise_ofList _
  used path member := (isBound.mem_gathered_iff path).mp (Ascending.mem_of_mem_ofList _ _ member)
  listed path uses := by
    obtain ⟨other, member, same⟩ :=
      Path.before_isBy.exists_of_mem _ path ((isBound.mem_gathered_iff path).mpr uses)
    exact ⟨other, member, (Path.same_iff_key _ _).mpr same⟩
  commandsAscend := by
    refine (CompileCommand.before_isBy.pairwise_ofList _).imp fun less => ?_
    simpa [CompileCommand.before] using less
  compiled command member := by
    obtain ⟨info, used, made⟩ := List.mem_flatMap.mp (Ascending.mem_of_mem_ofList _ _ member)
    exact ⟨info, (isBound.mem_modulesInUse_iff info).mp used,
      (Artifact.mem_moduleCommands_iff _ _ _ _).mp made⟩
  commanded info command needed compiles := by
    obtain ⟨other, member, same⟩ := CompileCommand.before_isBy.exists_of_mem
      ((Artifact.modulesInUse snapshot).flatMap (Artifact.moduleCommands config snapshot)) command
      (List.mem_flatMap.mpr ⟨info, (isBound.mem_modulesInUse_iff info).mpr needed,
        (Artifact.mem_moduleCommands_iff _ _ _ _).mpr compiles⟩)
    have ⟨files, rest⟩ := Prod.mk.inj (toLex.injective same)
    have ⟨directories, commands⟩ := Prod.mk.inj (toLex.injective rest)
    exact ⟨other, member, (Path.same_iff_key _ _).mpr files,
      (Path.same_iff_key _ _).mpr directories, commands⟩

/-- The bindings that a load publishes are those that its components make; the packages that
are read afterwards change neither. -/
theorem LoadReport.isBound_of_build (source : LoadSource) (generation : Nat) (roots : List Path)
    (snapshot : Snapshot) (published : (build source generation roots).result = .ok snapshot)
    (uncancelled : snapshot.cancelled = false) : ∃ index, snapshot.IsBound index := by
  obtain ⟨progress, _, _, rfl⟩ :=
    complete_of_uncancelled source generation roots snapshot published uncancelled
  let final := LoadProgress.loadLibraries source (source.system.pathCount + 1)
    (progress.loadComponents source).2 (progress.loadComponents source).1
  -- The bindings are made when all modules have been read.
  have ⟨_, kept⟩ := libraries_loadPackages source final.bindLibraries uncancelled
  have ⟨components, rest⟩ := Prod.mk.inj kept
  have ⟨modules, bindings⟩ := Prod.mk.inj rest
  refine ⟨final.snapshot.symbols, bindings.trans ?_⟩
  rw [show (progress.loadModules source).snapshot.components = _ from components,
    show (progress.loadModules source).snapshot.modules = _ from modules]
  rfl

/-- A load that is not cancelled leaves artifacts that list exactly what belongs to the
build. -/
theorem Workspace.load_artifacts (workspace : Workspace) (system : FileSystem)
    (cancellation : Cancellation) (snapshot : Snapshot)
    (published : (workspace.load system cancellation).1.result = .ok snapshot)
    (uncancelled : snapshot.cancelled = false) (config : Configuration) :
    snapshot.IsListed config := by
  rw [workspace.load_of_published system cancellation snapshot published] at published
  obtain ⟨index, isBound⟩ := LoadReport.isBound_of_build _ _ _ snapshot published uncancelled
  exact isBound.isListed config

/-! ### A build with one library -/

def libraryBuild : Workspace :=
  .new { Configuration.initial with
    workspaceRoot := ⟨"/ws"⟩, roots := [⟨"P.dsc"⟩], compilerFlags := ["-Os"] }

/-- A module with a package, and a library that is bound for it. -/
def libraryBuildFiles : FileSystem :=
  .memory (.ofList [
    (⟨"/ws/P.dsc"⟩, "[LibraryClasses]\nB|B.inf\n[Components]\nA.inf\n"),
    (⟨"/ws/A.inf"⟩, "[Sources]\nA.c\n[Packages]\nP.dec\n[LibraryClasses]\nB\n"),
    (⟨"/ws/A.c"⟩, ""), (⟨"/ws/B.inf"⟩, "[Sources]\nB.CC\n"), (⟨"/ws/B.CC"⟩, ""),
    (⟨"/ws/P.dec"⟩, "[Includes]\nI\n"), (⟨"/ws/I/I.h"⟩, "")])

/-- The artifacts of a snapshot as texts. -/
def Artifact.texts (config : Configuration) (snapshot : Snapshot) : List String × List String :=
  ((filesInUse snapshot).map (·.text), (compileDatabase config snapshot).map (·.command))

theorem libraryBuild_isListed :
    ∃ snapshot, (libraryBuild.load libraryBuildFiles .never).1.result = .ok snapshot ∧
      snapshot.cancelled = false ∧
      Artifact.texts libraryBuild.config snapshot =
        (["/ws/A.c", "/ws/A.inf", "/ws/B.CC", "/ws/B.inf", "/ws/P.dec", "/ws/P.dsc"],
          ["clang -Os -I/ws -I/ws/I -c /ws/A.c", "clang -Os -I/ws -c /ws/B.CC"]) ∧
      snapshot.IsListed libraryBuild.config := by
  have loaded : (libraryBuild.load libraryBuildFiles .never).1.result.toOption.any (fun snapshot =>
      snapshot.cancelled = false ∧ Artifact.texts libraryBuild.config snapshot =
        (["/ws/A.c", "/ws/A.inf", "/ws/B.CC", "/ws/B.inf", "/ws/P.dec", "/ws/P.dsc"],
          ["clang -Os -I/ws -I/ws/I -c /ws/A.c", "clang -Os -I/ws -c /ws/B.CC"])) = true := by
    decide +kernel
  cases published : (libraryBuild.load libraryBuildFiles .never).1.result with
  | error failure =>
    rw [published] at loaded
    cases loaded
  | ok snapshot =>
    rw [published] at loaded
    have ⟨uncancelled, texts⟩ := of_decide_eq_true loaded
    exact ⟨snapshot, rfl, uncancelled, texts,
      Workspace.load_artifacts _ _ _ snapshot published uncancelled _⟩

end FirmwareWorkspace
