import FirmwareWorkspace.Proofs.Document.Journal
import FirmwareWorkspace.Proofs.Line.Kind
import FirmwareWorkspace.Proofs.Resolver.Found

/-!
# What a line does and leaves alone

A line that enters no file changes a state by few kinds of update. `Survives` lists them
with what is known of each, and says that a property outlives them all; every such
property outlives the line. What a pass never touches follows: the numbering of files, the
open files, the recorded documents and the identity of its own file. Symbols are only
added, and always for that file.

Binding macros and assigning PCDs stand apart. `SurvivesNoting` and `SurvivesDirectives` list
the updates of lines that do neither, which say more about the tables and the problems.
-/
namespace FirmwareWorkspace

/-- A problem that lines report, and after which the reading of the file goes on. -/
def Problem.isRoutine : Problem → Bool
  | fatal _ | unterminatedConditional _ | custom _ _ _ | unresolvedLibrary _ _ _
  | ambiguousLibrary _ _ => false
  | _ => true

/-- A problem that a line reports which binds no macro. -/
def Problem.isOfLine : Problem → Bool
  | unresolvedInclude _ | malformedConditional _ | circularInclude _ | errorDirective _
  | unknownSection _ | unresolvedVariable _ _ | unresolvedPath _ _ => true
  | _ => false

theorem Problem.isRoutine_of_isOfLine (problem : Problem) (told : problem.isOfLine = true) :
    problem.isRoutine = true := by
  cases problem with
  | fatal | unterminatedConditional | custom | unresolvedLibrary | ambiguousLibrary => cases told
  | _ => rfl

/-- A section state tells its type by its first qualifier, and has a block open only among
components. Its qualifiers are stored. -/
structure SectionState.IsSound (place : SectionState) : Prop where
  stored : ∀ qualifier ∈ place.qualifiers, qualifier.IsStored
  sectionType : place.sectionType = ((place.qualifiers.head?).map (·.sectionType)).getD ""
  block : place.inBlock = true → place.sectionType = "components"

namespace SectionState

theorem isSound_initial : initial.IsSound :=
  ⟨nofun, rfl, fun inBlock => nomatch inBlock⟩

theorem isSound_enter (qualifiers : List Qualifier)
    (stored : ∀ qualifier ∈ qualifiers, qualifier.IsStored) : (enter qualifiers).IsSound :=
  ⟨stored, rfl, fun inBlock => nomatch inBlock⟩

end SectionState

namespace PassState

/-- A symbol that a line may add: of the file of the pass and the section, owned by nothing but
the open block, and aimed at paths in their normal form. -/
structure Emits (state : PassState) (symbol : Symbol) : Prop where
  file : symbol.file = state.pass.file
  qualifiers : symbol.qualifiers = state.place.qualifiers
  owner : symbol.owner = none ∨ symbol.owner = state.place.owner
  target : ∀ path, symbol.target = some path → path.normalize = path

/-- A property of states outlives every update of a declaration that binds no macro and
assigns no PCD. -/
structure SurvivesNoting (motive : PassState → Prop) : Prop where
  report (state : PassState) (line : Nat) (problem : Problem) : problem.isOfLine = true →
    motive state → motive (state.report line problem)
  resolver (state : PassState) (resolver : Resolver) :
    motive state → motive { state with reader := { state.reader with resolver } }
  place (state : PassState) (place : SectionState) : (state.place.IsSound → place.IsSound) →
    motive state → motive { state with place }
  symbol (state : PassState) (symbol : Symbol) : state.Emits symbol →
    motive state → motive (state.addSymbol symbol)

/-- It also outlives what directives do. -/
structure SurvivesDirectives (motive : PassState → Prop) : Prop extends
    SurvivesNoting motive where
  stack (state : PassState) (stack : ConditionalStack) :
    motive state → motive (state.setStack stack)
  inclusion (state : PassState) (path : Path) : motive state → motive (state.addInclude path)

/-- A property of states outlives every update that a declaration is made of. -/
structure SurvivesDeclaring (motive : PassState → Prop) : Prop where
  diagnostic (state : PassState) (diagnostic : Diagnostic) :
    diagnostic.location.file = state.pass.file → diagnostic.problem.isRoutine = true →
    motive state → motive { state with reader := state.reader.report diagnostic }
  tables (state : PassState) (context : Context) :
    context.diagnostics = state.reader.diagnostics →
    motive state → motive { state with reader := { state.reader with toContext := context } }
  place (state : PassState) (place : SectionState) : (state.place.IsSound → place.IsSound) →
    motive state → motive { state with place }
  symbol (state : PassState) (symbol : Symbol) : state.Emits symbol →
    motive state → motive (state.addSymbol symbol)

/-- It also outlives what directives do. -/
structure SurvivesFollowing (motive : PassState → Prop) : Prop extends
    SurvivesDeclaring motive where
  stack (state : PassState) (stack : ConditionalStack) :
    motive state → motive (state.setStack stack)
  inclusion (state : PassState) (path : Path) : motive state → motive (state.addInclude path)

/-- It outlives every update that a line is made of. -/
structure Survives (motive : PassState → Prop) : Prop extends SurvivesFollowing motive where
  inactive (state : PassState) (line : Nat) : motive state → motive (state.markInactive line)

/-! ### Symbols and lookups of lines -/

variable {system : FileSystem}

/-- A symbol that refers to nothing is one that a line may add. -/
theorem emits_symbol (state : PassState) (kind : SymbolKind) (line : Nat)
    (raw name value : String) : state.Emits (state.symbol kind line raw name value) :=
  ⟨rfl, rfl, .inl rfl, fun _ aimed => nomatch aimed⟩

theorem resolvePath_pass (state : PassState) (system : FileSystem) (line : Nat)
    (what path : String) (global : Bool) :
    (state.resolvePath system line what path global).2.pass = state.pass := by
  unfold PassState.resolvePath
  dsimp only
  split <;> rfl

theorem resolvePath_place (state : PassState) (system : FileSystem) (line : Nat)
    (what path : String) (global : Bool) :
    (state.resolvePath system line what path global).2.place = state.place := by
  unfold PassState.resolvePath
  dsimp only
  split <;> rfl

theorem normalize_of_resolvePath (state : PassState) (system : FileSystem) (line : Nat)
    (what path : String) (global : Bool) (target : Path)
    (found : (state.resolvePath system line what path global).1 = some target) :
    target.normalize = target := by
  unfold PassState.resolvePath at found
  dsimp only at found
  split at found
  next there =>
    cases found
    exact Resolver.normalize_of_found _ _ _ _ _ _ there
  all_goals cases found

theorem normalize_of_resolution (resolver : Resolver) (system : FileSystem) (text : String)
    (referrer : Option Path) (global : Bool) (target : Path)
    (found : (resolver.lookup system text referrer global).1.path? = some target) :
    target.normalize = target := by
  cases resolution : (resolver.lookup system text referrer global).1 with
  | found path =>
    rw [resolution] at found
    cases found
    exact resolver.normalize_of_found system text referrer global target resolution
  | _ =>
    rw [resolution] at found
    cases found

theorem Finds.normalize_eq {state : PassState} {raw target : String} {path : Path}
    (finds : state.Finds system raw target path) : path.normalize = path :=
  Resolver.normalize_of_found _ _ _ _ _ _ finds.found

/-- A line enters a file that is not being read. -/
theorem entry_target (state : PassState) (line : Nat) (raw : String) (entry : Entry)
    (enters : state.entryAt? system line raw = some entry) :
    entry.target.normalize = entry.target ∧ entry.target ∉ state.reader.openFiles := by
  obtain ⟨target, path, finds, fresh, rfl⟩ := (entry_eq_some_iff _ _ _ _ _).mp enters
  exact ⟨finds.normalize_eq, fresh⟩

theorem define_pass (state : PassState) (line : Nat) (name value : String) :
    (state.define line name value).pass = state.pass := by
  unfold PassState.define
  split <;> rfl

theorem define_place (state : PassState) (line : Nat) (name value : String) :
    (state.define line name value).place = state.place := by
  unfold PassState.define
  split <;> rfl

namespace SurvivesNoting

variable {motive : PassState → Prop}

/-! ### Declarations that bind nothing -/

theorem resolvePath (survives : SurvivesNoting motive) (state : PassState) (system : FileSystem)
    (line : Nat) (what path : String) (global : Bool) (holds : motive state) :
    motive (state.resolvePath system line what path global).2 := by
  have noted := survives.resolver state
    (state.reader.resolver.lookup system path (some state.pass.path) global).2 holds
  unfold PassState.resolvePath
  dsimp only
  split
  · exact noted
  all_goals exact survives.report _ line _ rfl noted

theorem declarePath (survives : SurvivesNoting motive) (state : PassState) (system : FileSystem)
    (line : Nat) (symbol : Symbol) (what : String) (global : Bool) (emits : state.Emits symbol)
    (holds : motive state) : motive (state.declarePath system line symbol what global) := by
  have resolved := survives.resolvePath state system line what symbol.value global holds
  -- Lookups change tables only, so the symbol is still one of the pass and its place.
  have emitted : (state.resolvePath system line what symbol.value global).2.Emits
      { symbol with target := (state.resolvePath system line what symbol.value global).1 } := by
    constructor
    · rw [resolvePath_pass]
      exact emits.file
    · rw [resolvePath_place]
      exact emits.qualifiers
    · rw [resolvePath_place]
      exact emits.owner
    · exact normalize_of_resolvePath state system line what symbol.value global
  exact survives.symbol _ _ emitted resolved

theorem reportUnknownSections (survives : SurvivesNoting motive) (state : PassState)
    (line : Nat) (qualifiers : List Qualifier) (holds : motive state) :
    motive (state.reportUnknownSections line qualifiers) := by
  have reported (types : List String) (state : PassState) (holds : motive state) :
      motive (types.foldl (fun state type => state.report line (.unknownSection type)) state) := by
    induction types generalizing state with
    | nil => exact holds
    | cons type rest ih => exact ih _ (survives.report state line _ rfl holds)
  exact reported _ state holds

theorem declareComponent (survives : SurvivesNoting motive) (state : PassState)
    (system : FileSystem) (line : Nat) (raw path : String) (opensBlock : Bool)
    (fits : opensBlock = true → state.place.sectionType = "components") (holds : motive state) :
    motive (state.declareComponent system line raw path opensBlock) := by
  have resolved := survives.resolvePath state system line "module" path true holds
  unfold PassState.declareComponent
  dsimp only
  refine survives.symbol _ _ ⟨?_, ?_, .inl rfl, fun target found => ?_⟩
    (survives.place _ _ (fun sound => ⟨sound.stored, sound.sectionType, fun opens => ?_⟩) resolved)
  · exact congrArg FilePass.file (resolvePath_pass state _ _ _ _ _).symm
  · exact (congrArg SectionState.qualifiers
      (resolvePath_place state system line "module" path true)).symm
  · exact normalize_of_resolvePath state system line "module" path true target found
  · exact (congrArg SectionState.sectionType (resolvePath_place state _ _ _ _ _)).trans (fits opens)

theorem declareHeader (survives : SurvivesNoting motive) (state : PassState)
    (system : FileSystem) (line : Nat) (raw name header : String) (holds : motive state) :
    motive (state.declareHeader system line raw name header) := by
  refine survives.symbol _ _ ⟨rfl, rfl, .inl rfl, fun target found => ?_⟩ (survives.resolver state
    (state.reader.resolver.resolveLocal system header (some state.pass.path)).2 holds)
  exact normalize_of_resolution _ _ _ _ _ target found

theorem declare (survives : SurvivesNoting motive) (state : PassState) (system : FileSystem)
    (line : Nat) (raw text : String) (kind : LineKind) (fits : kind.FitsIn state.place.sectionType)
    (unbound : ∀ name value, kind ≠ .definition name value) (holds : motive state) :
    motive (state.declare system line raw text kind) := by
  have plain (kind : SymbolKind) (name value : String) :
      motive (state.addSymbol (state.symbol kind line raw name value)) :=
    survives.symbol state _ (state.emits_symbol kind line raw name value) holds
  have aimed (kind : SymbolKind) (path what : String) (global : Bool) :
      motive (state.declarePath system line (state.symbol kind line raw path path) what global) :=
    survives.declarePath state system line _ what global
      (state.emits_symbol kind line raw path path) holds
  cases kind with
  | sectionHeader qualifiers =>
    exact survives.symbol _ _ (emits_symbol _ _ _ _ _ _)
      (survives.place _ _ (fun _ => SectionState.isSound_enter qualifiers (fits.header _ rfl))
        (survives.reportUnknownSections state line qualifiers holds))
  | subsection name =>
    exact survives.place state _ (fun sound => ⟨sound.stored, sound.sectionType, sound.block⟩) holds
  | definition name value => exact absurd rfl (unbound name value)
  | libraryClass name path =>
    exact survives.declarePath state system line _ _ _
      ⟨rfl, rfl, .inr rfl, fun _ aimed => nomatch aimed⟩ holds
  | component path opensBlock =>
    exact survives.declareComponent state system line raw path opensBlock
      (fun opens => fits.component path (opens ▸ rfl)) holds
  | blockOpen =>
    exact survives.place state _
      (fun sound => ⟨sound.stored, sound.sectionType, fun _ => fits.blockOpen rfl⟩) holds
  | blockClose =>
    exact survives.place state _
      (fun sound => ⟨sound.stored, sound.sectionType, fun opens => nomatch opens⟩) holds
  | source path => exact aimed _ _ _ _
  | package path => exact aimed _ _ _ _
  | libraryClassUsage name => exact plain _ _ _
  | guidUsage kind name => exact plain _ _ _
  | pcdUsage space name => exact plain _ _ _
  | includeDirectory path => exact aimed _ _ _ _
  | libraryClassDeclaration name header => exact survives.declareHeader _ system _ _ _ _ holds
  | guidDeclaration kind name value => exact plain _ _ _
  | other => exact holds

end SurvivesNoting

namespace SurvivesDeclaring

variable {motive : PassState → Prop}

/-! ### Declarations -/

theorem noting (survives : SurvivesDeclaring motive) : SurvivesNoting motive where
  report state _ problem told holds :=
    survives.diagnostic state _ rfl (problem.isRoutine_of_isOfLine told) holds
  resolver state resolver holds :=
    survives.tables state { state.reader.toContext with resolver } rfl holds
  place := survives.place
  symbol := survives.symbol

theorem report (survives : SurvivesDeclaring motive) (state : PassState) (line : Nat)
    (problem : Problem) (routine : problem.isRoutine = true) (holds : motive state) :
    motive (state.report line problem) :=
  survives.diagnostic state _ rfl routine holds

theorem define (survives : SurvivesDeclaring motive) (state : PassState) (line : Nat)
    (name value : String) (holds : motive state) : motive (state.define line name value) := by
  unfold PassState.define
  split
  -- A definition from outside the files is not replaced.
  · exact holds
  · have bound := survives.tables state { state.reader.toContext with
      definitions := (state.reader.definitions.set name value (some ⟨state.pass.file, line⟩)).2 }
      rfl holds
    dsimp only
    split
    · exact survives.diagnostic _ _ rfl rfl bound
    · exact bound

theorem declare (survives : SurvivesDeclaring motive) (state : PassState) (system : FileSystem)
    (line : Nat) (raw text : String) (kind : LineKind) (fits : kind.FitsIn state.place.sectionType)
    (holds : motive state) : motive (state.declare system line raw text kind) := by
  by_cases bound : ∃ name value, kind = .definition name value
  · obtain ⟨name, value, rfl⟩ := bound
    have kept : state.pass.file = (state.define line name value).pass.file :=
      congrArg FilePass.file (define_pass state line name value).symm
    have placed : state.place.qualifiers = (state.define line name value).place.qualifiers :=
      congrArg SectionState.qualifiers (define_place state line name value).symm
    exact survives.symbol _ _ ⟨kept, placed, .inl rfl, fun _ aimed => nomatch aimed⟩
      (survives.define state line name value holds)
  · apply survives.noting.declare state system line raw text kind fits _ holds
    intro name value same
    exact bound ⟨name, value, same⟩

theorem declareLine (survives : SurvivesDeclaring motive) (state : PassState) (system : FileSystem)
    (line : Nat) (raw : String) (holds : motive state) :
    motive (state.declareLine system line raw) := by
  unfold PassState.declareLine
  dsimp only
  split
  next assignment _ =>
    unfold PassState.assign
    dsimp only
    split
    · exact survives.symbol state _ ⟨rfl, rfl, .inr rfl, fun _ aimed => nomatch aimed⟩ holds
    · refine survives.symbol _ _ ⟨rfl, rfl, .inr rfl, fun _ aimed => nomatch aimed⟩ ?_
      exact survives.tables state { state.reader.toContext with pcds := _ } rfl holds
  · exact survives.declare state system line raw _ _ (Line.classify_fits _ _ _ _) holds

end SurvivesDeclaring

namespace SurvivesDirectives

variable {motive : PassState → Prop}

/-! ### Directives -/

theorem reportSyntax (survives : SurvivesDirectives motive) (state : PassState) (line : Nat)
    (result : Except Expression.EvalError Bool) (holds : motive state) :
    motive (state.reportSyntax line result) := by
  unfold PassState.reportSyntax
  split
  · exact survives.report state line _ rfl holds
  · exact holds

theorem openIf (survives : SurvivesDirectives motive) (state : PassState) (line : Nat)
    (condition : String) (holds : motive state) : motive (state.openIf line condition).1 := by
  unfold PassState.openIf
  dsimp only
  split
  · have reported := survives.reportSyntax state line
      (Expression.evaluateCondition state.reader.scope condition) holds
    split
    · exact survives.stack _ _ reported
    · exact reported
  · exact survives.stack state _ holds

theorem openIfDefined (survives : SurvivesDirectives motive) (state : PassState) (line : Nat)
    (expected : Bool) (arguments : String) (holds : motive state) :
    motive (state.openIfDefined line expected arguments).1 := by
  unfold PassState.openIfDefined
  split
  · exact survives.stack state _ holds
  · exact survives.stack _ _ (survives.report state line _ rfl holds)

theorem branchError (survives : SurvivesDirectives motive) (state : PassState) (line : Nat)
    (directive : String) (error : BranchError) (holds : motive state) :
    motive (state.branchError line directive error).1 := by
  cases error with
  | underflow => exact holds
  | afterElse => exact survives.report state line _ rfl holds

theorem elseIf (survives : SurvivesDirectives motive) (state : PassState) (line : Nat)
    (condition : String) (holds : motive state) : motive (state.elseIf line condition).1 := by
  -- The condition may be reported before it is known whether the branch is in order.
  have reported : motive (if state.pass.stack.evaluatesElseIf then
      state.reportSyntax line (Expression.evaluateCondition state.reader.scope condition)
      else state) := by
    split
    · exact survives.reportSyntax state line _ holds
    · exact holds
  unfold PassState.elseIf
  dsimp only
  split
  · exact survives.branchError _ _ _ _ reported
  · exact survives.stack _ _ reported
  · exact survives.stack _ _ reported

theorem rejectArguments (survives : SurvivesDirectives motive) (state : PassState)
    (line : Nat) (directive arguments : String) (holds : motive state) :
    motive (state.rejectArguments line directive arguments) := by
  unfold PassState.rejectArguments
  split
  · exact holds
  · exact survives.report state line _ rfl holds

theorem elseBranch (survives : SurvivesDirectives motive) (state : PassState) (line : Nat)
    (arguments : String) (holds : motive state) : motive (state.elseBranch line arguments).1 := by
  have reported := survives.rejectArguments state line "else" arguments holds
  unfold PassState.elseBranch
  dsimp only
  split
  · exact survives.stack _ _ reported
  · exact survives.branchError _ _ _ _ reported

theorem endIf (survives : SurvivesDirectives motive) (state : PassState) (line : Nat)
    (arguments : String) (holds : motive state) : motive (state.endIf line arguments).1 := by
  have reported := survives.rejectArguments state line "endif" arguments holds
  unfold PassState.endIf
  dsimp only
  split
  · exact survives.stack _ _ reported
  · exact reported

theorem noteInclude (survives : SurvivesDirectives motive) (state : PassState) (system : FileSystem)
    (line : Nat) (raw target : String) (holds : motive state) :
    motive (state.noteInclude system line raw target) := by
  unfold PassState.noteInclude
  dsimp only
  refine survives.symbol _ _ ⟨rfl, rfl, .inl rfl, fun path found => ?_⟩ (survives.resolver state
    (state.reader.resolver.resolve system (state.includeReference target)
      (some state.pass.path)).2 holds)
  exact normalize_of_resolution _ _ _ _ _ path found

theorem includeFile (survives : SurvivesDirectives motive) (state : PassState) (system : FileSystem)
    (line : Nat) (raw target : String) (holds : motive state) :
    motive (state.includeFile system .refuse line raw target) := by
  have noted := survives.noteInclude state system line raw target holds
  rw [includeFile_eq]
  split
  · unfold PassState.enterFile
    split
    -- The file is being read, or it is refused.
    · exact survives.report _ line _ rfl noted
    · exact survives.report _ line _ rfl (survives.inclusion _ _ noted)
  all_goals exact survives.report _ line _ rfl noted

theorem follow (survives : SurvivesDirectives motive) (state : PassState) (system : FileSystem)
    (line : Nat) (raw : String) (directive : Directive) (holds : motive state) :
    motive (state.follow system .refuse line raw directive).1 := by
  cases directive with
  | openIf condition => exact survives.openIf state line condition holds
  | openIfDefined expected arguments =>
    exact survives.openIfDefined state line expected arguments holds
  | elseIf condition => exact survives.elseIf state line condition holds
  | elseBranch arguments => exact survives.elseBranch state line arguments holds
  | endIf arguments => exact survives.endIf state line arguments holds
  | includeFile target => exact survives.includeFile state system line raw target holds
  | fail message => exact survives.report state line _ rfl holds
  | inert => exact holds

/-- An include is outlived up to the moment when its file is entered. -/
theorem entry (survives : SurvivesDirectives motive) {state : PassState} {line : Nat}
    {raw : String} {entry : Entry} (enters : state.entryAt? system line raw = some entry)
    (holds : motive state) : motive entry.state := by
  obtain ⟨target, path, _, _, rfl⟩ := (entry_eq_some_iff _ _ _ _ _).mp enters
  exact survives.inclusion _ _ (survives.noteInclude state system line raw target holds)

end SurvivesDirectives

namespace SurvivesFollowing

variable {motive : PassState → Prop}

theorem directives (survives : SurvivesFollowing motive) : SurvivesDirectives motive :=
  { survives.noting with stack := survives.stack, inclusion := survives.inclusion }

theorem follow (survives : SurvivesFollowing motive) (state : PassState) (system : FileSystem)
    (line : Nat) (raw : String) (directive : Directive) (holds : motive state) :
    motive (state.follow system .refuse line raw directive).1 :=
  survives.directives.follow state system line raw directive holds

/-- An include is outlived up to the moment when its file is entered. -/
theorem entry (survives : SurvivesFollowing motive) {state : PassState} {line : Nat}
    {raw : String} {entry : Entry} (enters : state.entryAt? system line raw = some entry)
    (holds : motive state) : motive entry.state :=
  survives.directives.entry enters holds

end SurvivesFollowing

/-! ### Lines -/

/-- Whether a line is live, has code and is no directive. -/
def declares (state : PassState) (raw : String) : Bool :=
  Line.code raw ≠ "" && (Directive.ofCode? (Line.code raw)).isNone && state.pass.stack.isActive

/-- What outlives directives and dead lines outlives a line that enters no file, if it outlives
what the line declares. -/
theorem SurvivesDirectives.step {motive : PassState → Prop} (survives : SurvivesDirectives motive)
    (inactive : ∀ state line, motive state → motive (state.markInactive line))
    (state : PassState) (system : FileSystem) (line : Nat) (raw : String)
    (declared : state.declares raw = true → motive (state.declareLine system line raw))
    (holds : motive state) : motive (state.step system .refuse line raw).1 := by
  unfold PassState.step
  split
  · exact holds
  next coded =>
    split
    next directive _ =>
      unfold PassState.directive
      dsimp only
      split
      · have followed := survives.follow state system line raw directive holds
        -- A directive between dead lines is marked dead itself.
        split
        · exact inactive _ line followed
        · exact followed
      · split
        · exact inactive state line holds
        · exact holds
    next plain =>
      split
      next live => exact declared (by simp [declares, coded, plain, live])
      · exact inactive state line holds

/-- What outlives the single updates outlives a line that enters no file. -/
theorem Survives.step {motive : PassState → Prop} (survives : Survives motive) (state : PassState)
    (system : FileSystem) (line : Nat) (raw : String) (holds : motive state) :
    motive (state.step system .refuse line raw).1 :=
  survives.directives.step survives.inactive state system line raw
    (fun _ => survives.declareLine state system line raw holds) holds

theorem Survives.of_step {motive : PassState → Prop} (survives : Survives motive)
    {system : FileSystem} {state next : PassState} {line : Nat} {raw : String}
    {fatal : Option FatalError} (stepped : state.step system .refuse line raw = (next, fatal))
    (holds : motive state) : motive next := by
  have kept := survives.step state system line raw holds
  rwa [stepped] at kept

/-! ### Frame -/

/-- What a pass keeps of a state: everything but its tables, its place, its conditionals
and its dead lines. Symbols are added for its own file. -/
structure Keeps (state later : PassState) : Prop where
  files : later.reader.files = state.reader.files
  openFiles : later.reader.openFiles = state.reader.openFiles
  documents : later.reader.documents = state.reader.documents
  file : later.pass.file = state.pass.file
  path : later.pass.path = state.pass.path
  dialect : later.pass.dialect = state.pass.dialect
  symbols : ∃ added, later.pass.symbols = state.pass.symbols ++ added ∧
    ∀ symbol ∈ added, symbol.file = state.pass.file

namespace Keeps

theorem refl (state : PassState) : Keeps state state :=
  ⟨rfl, rfl, rfl, rfl, rfl, rfl, [], (List.append_nil _).symm, fun _ member => nomatch member⟩

theorem survives (state : PassState) : Survives (Keeps state) where
  diagnostic _ _ _ _ keeps := { keeps with }
  tables _ _ _ keeps := { keeps with }
  place _ _ _ keeps := { keeps with }
  stack _ _ keeps := { keeps with }
  symbol later symbol emits keeps :=
    { keeps with
      symbols := by
        obtain ⟨added, extended, owned⟩ := keeps.symbols
        refine ⟨added ++ [symbol], ?_, ?_⟩
        · rw [← List.append_assoc, ← extended]
          rfl
        · intro other member
          rcases List.mem_append.mp member with member | member
          · exact owned other member
          · rw [List.mem_singleton.mp member, emits.file, keeps.file] }
  inactive _ _ keeps := { keeps with }
  inclusion _ _ keeps := { keeps with }

/-- A line that enters no file keeps what a pass keeps. -/
theorem of_step {system : FileSystem} {state next : PassState} {line : Nat} {raw : String}
    {fatal : Option FatalError} (stepped : state.step system .refuse line raw = (next, fatal)) :
    Keeps state next :=
  (survives state).of_step stepped (.refl state)

/-- An include keeps what a pass keeps until it enters its file. -/
theorem of_entry {system : FileSystem} {state : PassState} {line : Nat} {raw : String}
    {entry : Entry} (enters : state.entryAt? system line raw = some entry) :
    Keeps state entry.state :=
  (survives state).entry enters (.refl state)

end Keeps

end PassState

end FirmwareWorkspace
