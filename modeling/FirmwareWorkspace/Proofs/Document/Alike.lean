import FirmwareWorkspace.Proofs.Document.Frame
import FirmwareWorkspace.Proofs.Document.Unplaced

/-!
# Passes that differ in their places only

Two passes are alike if their tables, sections and conditionals agree apart from locations
and if they look for files in the same directory. The right one may stand inside further
live conditionals. Taking in the same line keeps them alike, whatever the numbers of the
line are, and adds the same symbols to both.
-/
namespace FirmwareWorkspace

/-- Two file systems with files at the same paths. -/
structure FileSystem.SamePaths (left right : FileSystem) : Prop where
  contains : left.contains = right.contains
  search : ∀ root name, left.search root name = right.search root name

/-- Lookups depend on the paths of files and on the directory of the referring file only. -/
theorem Resolver.lookup_congr (resolver : Resolver) (left right : FileSystem)
    (same : left.SamePaths right) (text : String) (here there : Path)
    (beside : here.parent? = there.parent?) (global : Bool) :
    resolver.lookup left text (some here) global =
      resolver.lookup right text (some there) global := by
  have tried (reference : Path) : resolver.candidates reference (some here) =
      resolver.candidates reference (some there) := by
    simp only [candidates, Option.bind_some, beside]
  have searched (reference : Path) : resolver.searchGlobally left reference =
      resolver.searchGlobally right reference := by
    simp only [searchGlobally, searchWorkspace, same.search]
  simp only [lookup, lookupPath, tried, searched, same.contains]

namespace PassState

/-- Two passes that differ in their places only. The right one stands inside the frames
of `base`; both have added the same symbols, to `here` and to `there`. -/
structure Alike (base : List Frame) (here there : List Symbol) (left right : PassState) : Prop where
  definitions : left.reader.definitions.unplaced = right.reader.definitions.unplaced
  pcds : left.reader.pcds.unplaced = right.reader.pcds.unplaced
  resolver : left.reader.resolver = right.reader.resolver
  place : left.place = right.place
  dialect : left.pass.dialect = right.pass.dialect
  directory : left.pass.path.parent? = right.pass.path.parent?
  stack : ConditionalStack.Over base left.pass.stack right.pass.stack
  symbols : ∃ added, left.pass.symbols.map Symbol.unplaced = here ++ added ∧
    right.pass.symbols.map Symbol.unplaced = there ++ added

/-- The state after a component entry with a key. -/
def atComponent (state : PassState) (key : String) (opensBlock : Bool) : PassState :=
  { state with place := { state.place with
    component := some key, inBlock := opensBlock, subsection := none } }

namespace Alike

variable {base : List Frame} {here there : List Symbol} {left right : PassState}

/-! ### Updates -/

theorem report (alike : Alike base here there left right) (line number : Nat)
    (problem other : Problem) :
    Alike base here there (left.report line problem) (right.report number other) :=
  { alike with }

theorem setPlace (alike : Alike base here there left right) (place : SectionState) :
    Alike base here there { left with place } { right with place } :=
  { alike with place := rfl }

theorem setStack (alike : Alike base here there left right) (stack other : ConditionalStack)
    (above : ConditionalStack.Over base stack other) :
    Alike base here there (left.setStack stack) (right.setStack other) :=
  { alike with stack := above }

theorem setPcds (alike : Alike base here there left right) (pcds other : PcdTable)
    (same : pcds.unplaced = other.unplaced) :
    Alike base here there { left with reader := { left.reader with pcds } }
      { right with reader := { right.reader with pcds := other } } :=
  { alike with pcds := same }

theorem markInactive (alike : Alike base here there left right) (line number : Nat) :
    Alike base here there (left.markInactive line) (right.markInactive number) :=
  { alike with }

theorem addSymbol (alike : Alike base here there left right) (symbol other : Symbol)
    (same : symbol.unplaced = other.unplaced) :
    Alike base here there (left.addSymbol symbol) (right.addSymbol other) where
  definitions := alike.definitions
  pcds := alike.pcds
  resolver := alike.resolver
  place := alike.place
  dialect := alike.dialect
  directory := alike.directory
  stack := alike.stack
  symbols := by
    obtain ⟨added, ours, theirs⟩ := alike.symbols
    refine ⟨added ++ [symbol.unplaced], ?_, ?_⟩
    · simp only [PassState.addSymbol, List.map_append, ours, List.map_cons, List.map_nil,
        List.append_assoc]
    · simp only [PassState.addSymbol, List.map_append, theirs, List.map_cons, List.map_nil,
        List.append_assoc, same]

theorem symbol_unplaced (alike : Alike base here there left right) (kind : SymbolKind)
    (line number : Nat) (raw name value : String) :
    (left.symbol kind line raw name value).unplaced =
      (right.symbol kind number raw name value).unplaced := by
  simp only [PassState.symbol, Symbol.unplaced, alike.place]

theorem isActive_eq (alike : Alike base here there left right)
    (live : ∀ frame ∈ base, frame.live = true) :
    right.pass.stack.isActive = left.pass.stack.isActive :=
  alike.stack.isActive_eq live

theorem replaceAll_eq (alike : Alike base here there left right) (text : String) :
    left.reader.definitions.replaceAll text = right.reader.definitions.replaceAll text :=
  DefinitionTable.replaceAll_congr alike.definitions text

/-- Conditions have the same value in both passes. -/
theorem scope_eq (alike : Alike base here there left right) :
    left.reader.scope = right.reader.scope := by
  rw [Context.scope, Context.scope, DefinitionTable.macroText_congr alike.definitions,
    PcdTable.value_congr alike.pcds]

/-! ### Declarations -/

/-- A definition from outside the files. -/
def isOutside (state : PassState) (name : String) : Bool :=
  (state.reader.definitions.find? name).any (·.location.isNone)

theorem isOutside_eq (alike : Alike base here there left right) (name : String) :
    isOutside left name = isOutside right name := by
  have kept (state : PassState) : isOutside state name =
      ((state.reader.definitions.find? name).map Definition.unplaced).any (·.location.isNone) := by
    rw [isOutside, Option.any_map]
    simp [Definition.unplaced]
  rw [kept left, kept right, DefinitionTable.find_congr alike.definitions]

theorem define_of_outside (state : PassState) (line : Nat) (name value : String)
    (outside : isOutside state name = true) : state.define line name value = state := by
  unfold PassState.define
  split
  · rfl
  next other =>
    rw [isOutside, Option.any_eq_true] at outside
    obtain ⟨⟨kept, text, location⟩, found, absent⟩ := outside
    cases Option.isNone_iff_eq_none.mp absent
    exact absurd found (other kept text)

theorem define_of_not_outside (state : PassState) (line : Nat) (name value : String)
    (inside : isOutside state name = false) :
    ∃ diagnostics, state.define line name value =
      { state with reader := { state.reader with
        definitions :=
          (state.reader.definitions.set name value (some ⟨state.pass.file, line⟩)).2
        diagnostics } } := by
  unfold PassState.define
  split
  next found =>
    rw [isOutside, found] at inside
    cases inside
  · dsimp only
    split
    · exact ⟨_, rfl⟩
    · exact ⟨_, rfl⟩

theorem define (alike : Alike base here there left right) (line number : Nat)
    (name value : String) :
    Alike base here there (left.define line name value) (right.define number name value) := by
  have same := alike.isOutside_eq name
  cases outside : isOutside left name with
  | true =>
    rw [define_of_outside left line name value outside,
      define_of_outside right number name value (same.symm.trans outside)]
    exact alike
  | false =>
    obtain ⟨_, ours⟩ := define_of_not_outside left line name value outside
    obtain ⟨_, theirs⟩ := define_of_not_outside right number name value (same.symm.trans outside)
    rw [ours, theirs]
    exact { alike with
      definitions := DefinitionTable.set_congr alike.definitions name value _ _ }

section Lookups

variable {system other : FileSystem}

theorem lookup_eq (alike : Alike base here there left right) (same : system.SamePaths other)
    (text : String) (global : Bool) :
    left.reader.resolver.lookup system text (some left.pass.path) global =
      right.reader.resolver.lookup other text (some right.pass.path) global := by
  rw [alike.resolver]
  exact Resolver.lookup_congr _ _ _ same text _ _ alike.directory global

theorem setResolver (alike : Alike base here there left right) (resolver : Resolver) :
    Alike base here there { left with reader := { left.reader with resolver } }
      { right with reader := { right.reader with resolver } } :=
  { alike with resolver := rfl }

theorem resolvePath (alike : Alike base here there left right) (same : system.SamePaths other)
    (line number : Nat) (what path : String) (global : Bool) :
    (left.resolvePath system line what path global).1 =
        (right.resolvePath other number what path global).1 ∧
      Alike base here there (left.resolvePath system line what path global).2
        (right.resolvePath other number what path global).2 := by
  unfold PassState.resolvePath
  rw [alike.lookup_eq same path global]
  have noted := alike.setResolver
    (right.reader.resolver.lookup other path (some right.pass.path) global).2
  dsimp only
  split
  · exact ⟨rfl, noted⟩
  all_goals exact ⟨rfl, noted.report _ _ _ _⟩

theorem declarePath_eq (state : PassState) (system : FileSystem) (line : Nat) (symbol : Symbol)
    (what : String) (global : Bool) :
    state.declarePath system line symbol what global =
      (state.resolvePath system line what symbol.value global).2.addSymbol
        (symbol.withTarget (state.resolvePath system line what symbol.value global).1) := rfl

theorem declarePath (alike : Alike base here there left right) (same : system.SamePaths other)
    (line number : Nat) (ours theirs : Symbol) (what : String) (global : Bool)
    (unplaced : ours.unplaced = theirs.unplaced) :
    Alike base here there (left.declarePath system line ours what global)
      (right.declarePath other number theirs what global) := by
  have ⟨target, resolved⟩ := alike.resolvePath same line number what ours.value global
  have value : right.resolvePath other number what theirs.value global =
      right.resolvePath other number what ours.value global := by
    rw [Symbol.value_of_unplaced unplaced]
  rw [declarePath_eq, declarePath_eq, value, target]
  exact resolved.addSymbol _ _ (Symbol.unplaced_withTarget unplaced _)

theorem enterSection (alike : Alike base here there left right) (line number : Nat)
    (raw text : String) (qualifiers : List Qualifier) :
    Alike base here there (left.enterSection line raw text qualifiers)
      (right.enterSection number raw text qualifiers) := by
  have reported (types : List String) (left right : PassState)
      (alike : Alike base here there left right) :
      Alike base here there
        (types.foldl (fun state type => state.report line (.unknownSection type)) left)
        (types.foldl (fun state type => state.report number (.unknownSection type)) right) := by
    induction types generalizing left right with
    | nil => exact alike
    | cons type rest ih => exact ih _ _ (alike.report _ _ _ _)
  have known : Alike base here there (left.reportUnknownSections line qualifiers)
      (right.reportUnknownSections number qualifiers) := by
    rw [PassState.reportUnknownSections, PassState.reportUnknownSections, alike.dialect]
    exact reported _ left right alike
  have entered := known.setPlace (.enter qualifiers)
  exact entered.addSymbol _ _ (entered.symbol_unplaced _ _ _ _ _ _)

theorem atComponent (alike : Alike base here there left right) (key : String)
    (opensBlock : Bool) :
    Alike base here there (left.atComponent key opensBlock) (right.atComponent key opensBlock) := by
  rw [PassState.atComponent, PassState.atComponent, alike.place]
  exact alike.setPlace _

theorem declareComponent_eq (state : PassState) (system : FileSystem) (line : Nat)
    (raw path : String) (opensBlock : Bool) :
    state.declareComponent system line raw path opensBlock =
      let resolved := state.resolvePath system line "module" path true
      let symbol := (state.symbol .component line raw path path).withTarget resolved.1
      (resolved.2.atComponent symbol.key opensBlock).addSymbol symbol := rfl

theorem declareComponent (alike : Alike base here there left right)
    (same : system.SamePaths other) (line number : Nat) (raw path : String) (opensBlock : Bool) :
    Alike base here there (left.declareComponent system line raw path opensBlock)
      (right.declareComponent other number raw path opensBlock) := by
  have ⟨target, resolved⟩ := alike.resolvePath same line number "module" path true
  have named := Symbol.unplaced_withTarget
    (alike.symbol_unplaced .component line number raw path path)
    (right.resolvePath other number "module" path true).1
  rw [declareComponent_eq, declareComponent_eq]
  dsimp only
  rw [target, Symbol.key_of_unplaced named]
  exact (resolved.atComponent _ _).addSymbol _ _ named

theorem declareHeader (alike : Alike base here there left right)
    (same : system.SamePaths other) (line number : Nat) (raw name header : String) :
    Alike base here there (left.declareHeader system line raw name header)
      (right.declareHeader other number raw name header) := by
  unfold PassState.declareHeader Resolver.resolveLocal
  rw [alike.lookup_eq same header false]
  have noted := alike.setResolver
    (right.reader.resolver.lookup other header (some right.pass.path) false).2
  exact noted.addSymbol _ _ (Symbol.unplaced_withTarget (noted.symbol_unplaced _ _ _ _ _ _) _)

theorem declare (alike : Alike base here there left right) (same : system.SamePaths other)
    (line number : Nat) (raw text : String) (kind : LineKind) :
    Alike base here there (left.declare system line raw text kind)
      (right.declare other number raw text kind) := by
  have plain (kind : SymbolKind) (name value : String) :=
    alike.symbol_unplaced kind line number raw name value
  cases kind with
  | sectionHeader qualifiers => exact alike.enterSection line number raw text qualifiers
  | subsection name =>
    rw [PassState.declare, PassState.declare, alike.place]
    exact alike.setPlace _
  | definition name value => exact (alike.define _ _ _ _).addSymbol _ _ (plain ..)
  | libraryClass name path =>
    refine alike.declarePath same _ _ _ _ _ _ ?_
    rw [alike.place]
    exact Symbol.unplaced_withOwner (plain ..) _
  | component path opensBlock => exact alike.declareComponent same _ _ _ _ _
  | blockOpen =>
    rw [PassState.declare, PassState.declare, alike.place]
    exact alike.setPlace _
  | blockClose =>
    rw [PassState.declare, PassState.declare, alike.place]
    exact alike.setPlace _
  | source path => exact alike.declarePath same _ _ _ _ _ _ (plain ..)
  | package path => exact alike.declarePath same _ _ _ _ _ _ (plain ..)
  | libraryClassUsage name => exact alike.addSymbol _ _ (plain ..)
  | guidUsage kind name => exact alike.addSymbol _ _ (plain ..)
  | pcdUsage space name => exact alike.addSymbol _ _ (plain ..)
  | includeDirectory path => exact alike.declarePath same _ _ _ _ _ _ (plain ..)
  | libraryClassDeclaration name header => exact alike.declareHeader same _ _ _ _ _
  | guidDeclaration kind name value => exact alike.addSymbol _ _ (plain ..)
  | other => exact alike

theorem assign (alike : Alike base here there left right) (line number : Nat) (raw : String)
    (assignment : Line.PcdAssignment) :
    Alike base here there (left.assign line raw assignment)
      (right.assign number raw assignment) := by
  have named (value : String) := Symbol.unplaced_withOwner
    (alike.symbol_unplaced .pcd line number raw (assignment.space ++ "." ++ assignment.name) value)
    right.place.owner
  have owner : left.place.owner = right.place.owner := by rw [alike.place]
  unfold PassState.assign
  rw [PcdTable.replaceInLine_congr alike.pcds, owner]
  dsimp only
  split
  · exact alike.addSymbol _ _ (named _)
  · have assigned := PcdTable.set_congr alike.pcds assignment.space assignment.name
      (right.reader.pcds.replaceInLine assignment.value) ⟨left.pass.file, line⟩
      ⟨right.pass.file, number⟩
    exact (alike.setPcds _ _ assigned).addSymbol _ _ (named _)

theorem declareLine (alike : Alike base here there left right) (same : system.SamePaths other)
    (line number : Nat) (raw : String) :
    Alike base here there (left.declareLine system line raw)
      (right.declareLine other number raw) := by
  unfold PassState.declareLine
  simp only [alike.replaceAll_eq, alike.dialect, alike.place,
    PcdTable.replaceInLine_congr alike.pcds]
  split
  · exact alike.assign line number raw _
  · exact alike.declare same line number raw _ _

end Lookups

/-! ### Conditional directives -/

/-- Two outcomes of a line: the states are alike, and both stop the file or neither does. -/
def Outcome (base : List Frame) (here there : List Symbol) (left right : Step) : Prop :=
  Alike base here there left.1 right.1 ∧ left.2.isSome = right.2.isSome

theorem reportSyntax (alike : Alike base here there left right) (line number : Nat)
    (result : Except Expression.EvalError Bool) :
    Alike base here there (left.reportSyntax line result) (right.reportSyntax number result) := by
  unfold PassState.reportSyntax
  split
  · exact alike.report _ _ _ _
  · exact alike

theorem openIf (alike : Alike base here there left right)
    (live : ∀ frame ∈ base, frame.live = true) (line number : Nat) (condition : String) :
    Outcome base here there (left.openIf line condition) (right.openIf number condition) := by
  have active := alike.isActive_eq live
  have pushed (value : Bool) := alike.stack.push live line number value
  unfold PassState.openIf
  simp only [ConditionalStack.evaluatesIf, ConditionalStack.openIf, active, alike.scope_eq]
  split
  · have reported := alike.reportSyntax line number
      (Expression.evaluateCondition right.reader.scope condition)
    cases recovered (Expression.evaluateCondition right.reader.scope condition) with
    | ok value => exact ⟨reported.setStack _ _ (pushed value), rfl⟩
    | error error => exact ⟨reported, rfl⟩
  · exact ⟨alike.setStack _ _ (pushed false), rfl⟩

theorem openIfDefined (alike : Alike base here there left right)
    (live : ∀ frame ∈ base, frame.live = true) (line number : Nat) (expected : Bool)
    (arguments : String) :
    Outcome base here there (left.openIfDefined line expected arguments)
      (right.openIfDefined number expected arguments) := by
  unfold PassState.openIfDefined
  split
  next name _ =>
    rw [DefinitionTable.isDefined_congr alike.definitions name]
    exact ⟨alike.setStack _ _ (alike.stack.push live line number _), rfl⟩
  · exact ⟨(alike.report _ _ _ _).setStack _ _ (alike.stack.push live line number false), rfl⟩

theorem rejectArguments (alike : Alike base here there left right) (line number : Nat)
    (directive arguments : String) :
    Alike base here there (left.rejectArguments line directive arguments)
      (right.rejectArguments number directive arguments) := by
  unfold PassState.rejectArguments
  split
  · exact alike
  · exact alike.report _ _ _ _

theorem branchError (alike : Alike base here there left right) (line number : Nat)
    (directive : String) (error : BranchError) :
    Outcome base here there (left.branchError line directive error)
      (right.branchError number directive error) := by
  cases error with
  | underflow => exact ⟨alike, rfl⟩
  | afterElse => exact ⟨alike.report _ _ _ _, rfl⟩

-- Without an open conditional of its own, a branch directive stops the left file, while the
-- right one would change a frame of the base. Unless the base is empty, `sound` excludes this.

theorem endIf (alike : Alike base here there left right) (line number : Nat) (arguments : String)
    (sound : base = [] ∨ (left.endIf line arguments).2 = none) :
    Outcome base here there (left.endIf line arguments) (right.endIf number arguments) := by
  have reported := alike.rejectArguments line number "endif" arguments
  unfold PassState.endIf at sound ⊢
  dsimp only at sound ⊢
  cases opened : (left.rejectArguments line "endif" arguments).pass.stack.frames with
  | nil =>
    simp only [ConditionalStack.close, opened] at sound ⊢
    have bare : base = [] := sound.resolve_right (Option.some_ne_none _)
    rw [reported.stack.of_nil opened bare]
    exact ⟨reported, rfl⟩
  | cons top outer =>
    obtain ⟨other, around, split, _, above⟩ := reported.stack.of_cons top outer opened
    simp only [ConditionalStack.close, opened, split]
    exact ⟨reported.setStack _ _ above, rfl⟩

theorem elseBranch (alike : Alike base here there left right) (line number : Nat)
    (arguments : String) (sound : base = [] ∨ (left.elseBranch line arguments).2 = none) :
    Outcome base here there (left.elseBranch line arguments)
      (right.elseBranch number arguments) := by
  have reported := alike.rejectArguments line number "else" arguments
  unfold PassState.elseBranch at sound ⊢
  dsimp only at sound ⊢
  cases opened : (left.rejectArguments line "else" arguments).pass.stack.frames with
  | nil =>
    simp only [ConditionalStack.elseBranch, opened] at sound ⊢
    have bare : base = [] := sound.resolve_right (Option.some_ne_none _)
    rw [reported.stack.of_nil opened bare]
    exact reported.branchError line number "else" .underflow
  | cons top outer =>
    obtain ⟨other, around, split, same, above⟩ := reported.stack.of_cons top outer opened
    have seen : other.seenElse = top.seenElse := Frame.seenElse_of_unplaced same
    have settled : other.settled = top.settled := Frame.settled_of_unplaced same
    by_cases ended : top.seenElse = true
    · simp only [ConditionalStack.elseBranch, opened, split, seen, ended, if_true]
      exact reported.branchError line number "else" .afterElse
    · simp only [ConditionalStack.elseBranch, opened, split, seen, settled, if_neg ended]
      exact ⟨reported.setStack _ _ (above.cons rfl), rfl⟩

theorem elseIf (alike : Alike base here there left right)
    (live : ∀ frame ∈ base, frame.live = true) (line number : Nat) (condition : String)
    (sound : base = [] ∨ (left.elseIf line condition).2 = none) :
    Outcome base here there (left.elseIf line condition) (right.elseIf number condition) := by
  unfold PassState.elseIf at sound ⊢
  dsimp only at sound ⊢
  cases opened : left.pass.stack.frames with
  | nil =>
    simp only [ConditionalStack.elseIf, ConditionalStack.evaluatesElseIf, opened] at sound ⊢
    have bare : base = [] := sound.resolve_right (Option.some_ne_none _)
    simp only [alike.stack.of_nil opened bare]
    exact alike.branchError line number "elseif" .underflow
  | cons top outer =>
    obtain ⟨other, around, split, same, above⟩ := alike.stack.of_cons top outer opened
    have seen : other.seenElse = top.seenElse := Frame.seenElse_of_unplaced same
    have settled : other.settled = top.settled := Frame.settled_of_unplaced same
    -- The frames of the base are live, so the right branch is as open as the left one.
    have enclosing : around.all (·.live) = outer.all (·.live) := above.isActive_eq live
    simp only [ConditionalStack.elseIf, ConditionalStack.evaluatesElseIf,
      ConditionalStack.isEnclosingActive, opened, split, seen, settled, enclosing, List.tail_cons,
      alike.scope_eq]
    by_cases ended : top.seenElse = true
    · simp only [ended, if_true, Bool.not_true, Bool.false_and, Bool.false_eq_true, if_false]
      exact alike.branchError line number "elseif" .afterElse
    by_cases evaluates : (!top.seenElse && !top.settled && outer.all (·.live)) = true
    · have reported := alike.reportSyntax line number
        (Expression.evaluateCondition right.reader.scope condition)
      simp only [if_neg ended, if_pos evaluates]
      cases recovered (Expression.evaluateCondition right.reader.scope condition) with
      | ok value => exact ⟨reported.setStack _ _ (above.cons rfl), rfl⟩
      | error error => exact ⟨reported.setStack _ _ (above.cons rfl), rfl⟩
    · simp only [if_neg ended, if_neg evaluates]
      exact ⟨alike.setStack _ _ (above.cons rfl), rfl⟩

/-! ### Includes and whole lines -/

section Lines

variable {system other : FileSystem}

theorem includeReference_eq (alike : Alike base here there left right) (target : String) :
    left.includeReference target = right.includeReference target :=
  alike.replaceAll_eq _

theorem resolve_eq (alike : Alike base here there left right) (same : system.SamePaths other)
    (target : String) :
    left.reader.resolver.resolve system (left.includeReference target) (some left.pass.path) =
      right.reader.resolver.resolve other (right.includeReference target)
        (some right.pass.path) := by
  rw [alike.includeReference_eq]
  exact alike.lookup_eq same _ true

theorem noteInclude (alike : Alike base here there left right) (same : system.SamePaths other)
    (line number : Nat) (raw target : String) :
    Alike base here there (left.noteInclude system line raw target)
      (right.noteInclude other number raw target) := by
  unfold PassState.noteInclude
  dsimp only
  rw [alike.resolve_eq same, alike.includeReference_eq]
  have noted := alike.setResolver (right.reader.resolver.resolve other
    (right.includeReference target) (some right.pass.path)).2
  exact noted.addSymbol _ _ (Symbol.unplaced_withTarget (noted.symbol_unplaced _ _ _ _ _ _) _)

theorem addInclude (alike : Alike base here there left right) (path : Path) :
    Alike base here there (left.addInclude path) (right.addInclude path) :=
  { alike with }

theorem includeFile (alike : Alike base here there left right) (same : system.SamePaths other)
    (line number : Nat) (raw target : String) :
    Alike base here there (left.includeFile system .refuse line raw target)
      (right.includeFile other .refuse number raw target) := by
  have noted := alike.noteInclude same line number raw target
  -- A file that is refused leaves the state as one that is being read does.
  have refused (state : PassState) (line : Nat) (reference : String) (path : Path) :
      ∃ includes diagnostics, state.enterFile .refuse line reference path =
        { state with
          reader := { state.reader with diagnostics }, pass := { state.pass with includes } } := by
    unfold PassState.enterFile
    split
    · exact ⟨_, _, rfl⟩
    · exact ⟨_, _, rfl⟩
  rw [includeFile_eq, includeFile_eq, alike.resolve_eq same]
  generalize left.noteInclude system line raw target = ours at noted ⊢
  generalize right.noteInclude other number raw target = theirs at noted ⊢
  split
  next path _ =>
    obtain ⟨_, _, kept⟩ := refused ours line (left.includeReference target) path
    obtain ⟨_, _, keptToo⟩ := refused theirs number (right.includeReference target) path
    rw [kept, keptToo]
    exact { noted with }
  all_goals exact noted.report _ _ _ _

theorem follow (alike : Alike base here there left right) (same : system.SamePaths other)
    (live : ∀ frame ∈ base, frame.live = true) (line number : Nat) (raw : String)
    (directive : Directive)
    (sound : base = [] ∨ (left.follow system .refuse line raw directive).2 = none) :
    Outcome base here there (left.follow system .refuse line raw directive)
      (right.follow other .refuse number raw directive) := by
  cases directive with
  | openIf condition => exact alike.openIf live line number condition
  | openIfDefined expected arguments =>
    exact alike.openIfDefined live line number expected arguments
  | elseIf condition => exact alike.elseIf live line number condition sound
  | elseBranch arguments => exact alike.elseBranch line number arguments sound
  | endIf arguments => exact alike.endIf line number arguments sound
  | includeFile target =>
    rw [PassState.follow, PassState.follow]
    exact ⟨alike.includeFile same line number raw target, rfl⟩
  | fail message => exact ⟨alike.report _ _ _ _, rfl⟩
  | inert => exact ⟨alike, rfl⟩

theorem directive (alike : Alike base here there left right) (same : system.SamePaths other)
    (live : ∀ frame ∈ base, frame.live = true) (line number : Nat) (raw : String)
    (directive : Directive)
    (sound : base = [] ∨ (left.directive system .refuse line raw directive).2 = none) :
    Outcome base here there (left.directive system .refuse line raw directive)
      (right.directive other .refuse number raw directive) := by
  have followed : Outcome base here there (left.followLive system .refuse line raw directive)
      (right.followLive other .refuse number raw directive) := by
    rw [directive_eq, markDead_fatal, PassState.followLive] at sound
    rw [PassState.followLive, PassState.followLive, alike.isActive_eq live]
    split
    next reached =>
      rw [if_pos reached] at sound
      exact alike.follow same live line number raw directive sound
    · exact ⟨alike, rfl⟩
  have ⟨states, fatal⟩ := followed
  -- A line is marked dead on both sides or on neither.
  have stops : (left.followLive system .refuse line raw directive).2.isNone =
      (right.followLive other .refuse number raw directive).2.isNone := by
    rw [← Option.not_isSome, ← Option.not_isSome, fatal]
  rw [directive_eq, directive_eq, PassState.markDead, PassState.markDead, alike.isActive_eq live,
    states.isActive_eq live, stops]
  split
  · exact ⟨states.markInactive line number, rfl⟩
  · exact followed

/-- Taking in the same line keeps two passes alike. -/
theorem step (alike : Alike base here there left right) (same : system.SamePaths other)
    (live : ∀ frame ∈ base, frame.live = true) (line number : Nat) (raw : String)
    (sound : base = [] ∨ (left.step system .refuse line raw).2 = none) :
    Outcome base here there (left.step system .refuse line raw)
      (right.step other .refuse number raw) := by
  unfold PassState.step at sound ⊢
  split
  · exact ⟨alike, rfl⟩
  next coded =>
    simp only [if_neg coded] at sound
    split
    next directive found =>
      simp only [found] at sound
      exact alike.directive same live line number raw directive sound
    · rw [alike.isActive_eq live]
      split
      · exact ⟨alike.declareLine same line number raw, rfl⟩
      · exact ⟨alike.markInactive line number, rfl⟩

end Lines

end Alike

end PassState

end FirmwareWorkspace
