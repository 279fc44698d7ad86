import FirmwareWorkspace.Proofs.Document.Journal

/-!
# Problems reported earlier

A reader only adds to the list of problems and never looks at it. With other problems reported
before it starts, it does the same and leaves those problems in front of its own.

Main result: `Runs.withEarlier`.
-/
namespace FirmwareWorkspace

/-- The reader with further problems in front of those it has reported. -/
def Reader.withEarlier (earlier : List Diagnostic) (reader : Reader) : Reader :=
  { reader with diagnostics := earlier ++ reader.diagnostics }

/-- The pass of a reader with further problems in front of those it has reported. -/
def PassState.withEarlier (earlier : List Diagnostic) (state : PassState) : PassState :=
  { state with reader := state.reader.withEarlier earlier }

def Step.withEarlier (earlier : List Diagnostic) (outcome : Step) : Step :=
  (outcome.1.withEarlier earlier, outcome.2)

def Entry.withEarlier (earlier : List Diagnostic) (entry : Entry) : Entry :=
  { entry with state := entry.state.withEarlier earlier }

namespace Step

variable (outcome : Step) (earlier : List Diagnostic)

theorem place_withEarlier : (outcome.withEarlier earlier).1.place = outcome.1.place := rfl

theorem pass_withEarlier : (outcome.withEarlier earlier).1.pass = outcome.1.pass := rfl

theorem fatal_withEarlier : (outcome.withEarlier earlier).2 = outcome.2 := rfl

end Step

theorem Step.withEarlier_inj (outcome : Step) (one two : List Diagnostic) :
    outcome.withEarlier one = outcome.withEarlier two ↔
      outcome.1.reader.withEarlier one = outcome.1.reader.withEarlier two := by
  constructor
  · intro same
    exact congrArg (·.1.reader) same
  · intro same
    exact congrArg (fun reader => (({ outcome.1 with reader } : PassState), outcome.2)) same

theorem Reader.report_withEarlier (earlier : List Diagnostic) (reader : Reader)
    (diagnostic : Diagnostic) :
    (reader.withEarlier earlier).report diagnostic =
      (reader.report diagnostic).withEarlier earlier := by
  simp only [withEarlier, report, List.append_assoc]

namespace PassState

variable (earlier : List Diagnostic) (state : PassState) (line : Nat)

@[simp] theorem pass_withEarlier : (state.withEarlier earlier).pass = state.pass := rfl

@[simp] theorem place_withEarlier : (state.withEarlier earlier).place = state.place := rfl

@[simp] theorem definitions_withEarlier :
    (state.withEarlier earlier).reader.definitions = state.reader.definitions := rfl

@[simp] theorem pcds_withEarlier :
    (state.withEarlier earlier).reader.pcds = state.reader.pcds := rfl

@[simp] theorem resolver_withEarlier :
    (state.withEarlier earlier).reader.resolver = state.reader.resolver := rfl

@[simp] theorem openFiles_withEarlier :
    (state.withEarlier earlier).reader.openFiles = state.reader.openFiles := rfl

@[simp] theorem scope_withEarlier :
    (state.withEarlier earlier).reader.scope = state.reader.scope := rfl

/-! ### Declarations -/

theorem report_withEarlier (problem : Problem) :
    (state.withEarlier earlier).report line problem =
      (state.report line problem).withEarlier earlier :=
  congrArg ({ state with reader := · })
    (Reader.report_withEarlier earlier state.reader (.plain ⟨state.pass.file, line⟩ problem))

theorem define_withEarlier (name value : String) :
    (state.withEarlier earlier).define line name value =
      (state.define line name value).withEarlier earlier := by
  unfold define
  simp only [withEarlier, Reader.withEarlier]
  split
  · rfl
  · dsimp only
    split
    · simp only [Reader.report, List.append_assoc]
    · rfl

section Lookups

variable (system : FileSystem)

theorem resolvePath_withEarlier (what path : String) (global : Bool) :
    (state.withEarlier earlier).resolvePath system line what path global =
      ((state.resolvePath system line what path global).1,
        (state.resolvePath system line what path global).2.withEarlier earlier) := by
  unfold resolvePath
  simp only [withEarlier, Reader.withEarlier]
  split
  · rfl
  all_goals simp only [report, Reader.report, List.append_assoc]

theorem declarePath_withEarlier (symbol : Symbol) (what : String) (global : Bool) :
    (state.withEarlier earlier).declarePath system line symbol what global =
      (state.declarePath system line symbol what global).withEarlier earlier := by
  unfold declarePath
  rw [resolvePath_withEarlier]
  generalize state.resolvePath system line what symbol.value global = resolved
  rfl

theorem reportUnknownSections_withEarlier (qualifiers : List Qualifier) :
    (state.withEarlier earlier).reportUnknownSections line qualifiers =
      (state.reportUnknownSections line qualifiers).withEarlier earlier := by
  have reported (types : List String) (state : PassState) :
      types.foldl (fun state type => state.report line (.unknownSection type))
          (state.withEarlier earlier) =
        (types.foldl (fun state type => state.report line (.unknownSection type))
          state).withEarlier earlier := by
    induction types generalizing state with
    | nil => rfl
    | cons type rest ih => rw [List.foldl_cons, List.foldl_cons, report_withEarlier, ih]
  exact reported _ state

theorem enterSection_withEarlier (raw text : String) (qualifiers : List Qualifier) :
    (state.withEarlier earlier).enterSection line raw text qualifiers =
      (state.enterSection line raw text qualifiers).withEarlier earlier := by
  unfold enterSection
  rw [reportUnknownSections_withEarlier]
  rfl

theorem declareComponent_withEarlier (raw path : String) (opensBlock : Bool) :
    (state.withEarlier earlier).declareComponent system line raw path opensBlock =
      (state.declareComponent system line raw path opensBlock).withEarlier earlier := by
  unfold declareComponent
  rw [resolvePath_withEarlier]
  generalize state.resolvePath system line "module" path true = resolved
  rfl

theorem declare_withEarlier (raw text : String) (kind : LineKind) :
    (state.withEarlier earlier).declare system line raw text kind =
      (state.declare system line raw text kind).withEarlier earlier := by
  cases kind with
  | sectionHeader qualifiers =>
    exact enterSection_withEarlier earlier state line raw text qualifiers
  | definition name value =>
    rw [declare, define_withEarlier]
    rfl
  | component path opensBlock =>
    exact declareComponent_withEarlier earlier state line system raw path opensBlock
  | libraryClass | source | package | includeDirectory =>
    exact declarePath_withEarlier earlier state line system _ _ _
  | _ => rfl

theorem assign_withEarlier (raw : String) (assignment : Line.PcdAssignment) :
    (state.withEarlier earlier).assign line raw assignment =
      (state.assign line raw assignment).withEarlier earlier := by
  unfold assign
  simp only [withEarlier, Reader.withEarlier]
  split <;> rfl

theorem declareLine_withEarlier (raw : String) :
    (state.withEarlier earlier).declareLine system line raw =
      (state.declareLine system line raw).withEarlier earlier := by
  unfold declareLine
  simp only [pass_withEarlier, place_withEarlier, definitions_withEarlier, pcds_withEarlier]
  split
  · exact assign_withEarlier earlier state line raw _
  · exact declare_withEarlier earlier state line system raw _ _

end Lookups

/-! ### Directives -/

theorem reportSyntax_withEarlier (result : Except Expression.EvalError Bool) :
    (state.withEarlier earlier).reportSyntax line result =
      (state.reportSyntax line result).withEarlier earlier := by
  unfold reportSyntax
  split
  · exact report_withEarlier earlier state line _
  · rfl

theorem rejectArguments_withEarlier (directive arguments : String) :
    (state.withEarlier earlier).rejectArguments line directive arguments =
      (state.rejectArguments line directive arguments).withEarlier earlier := by
  unfold rejectArguments
  split
  · rfl
  · exact report_withEarlier earlier state line _

theorem branchError_withEarlier (directive : String) (error : BranchError) :
    (state.withEarlier earlier).branchError line directive error =
      (state.branchError line directive error).withEarlier earlier := by
  cases error with
  | underflow => rfl
  | afterElse => exact congrArg (·, none) (report_withEarlier earlier state line _)

theorem openIf_withEarlier (condition : String) :
    (state.withEarlier earlier).openIf line condition =
      (state.openIf line condition).withEarlier earlier := by
  unfold openIf
  simp only [pass_withEarlier, scope_withEarlier, reportSyntax_withEarlier]
  split
  · split <;> rfl
  · rfl

theorem openIfDefined_withEarlier (expected : Bool) (arguments : String) :
    (state.withEarlier earlier).openIfDefined line expected arguments =
      (state.openIfDefined line expected arguments).withEarlier earlier := by
  unfold openIfDefined
  split
  · rfl
  · simp only [report_withEarlier]
    rfl

theorem elseIf_withEarlier (condition : String) :
    (state.withEarlier earlier).elseIf line condition =
      (state.elseIf line condition).withEarlier earlier := by
  unfold elseIf
  simp only [pass_withEarlier, scope_withEarlier, reportSyntax_withEarlier]
  -- The syntax error is reported in both readers or in neither.
  by_cases evaluates : state.pass.stack.evaluatesElseIf = true
  · simp only [if_pos evaluates]
    split
    · exact branchError_withEarlier earlier _ line _ _
    · rfl
    · rfl
  · simp only [if_neg evaluates]
    split
    · exact branchError_withEarlier earlier _ line _ _
    · rfl
    · rfl

theorem elseBranch_withEarlier (arguments : String) :
    (state.withEarlier earlier).elseBranch line arguments =
      (state.elseBranch line arguments).withEarlier earlier := by
  unfold elseBranch
  simp only [rejectArguments_withEarlier, pass_withEarlier]
  split
  · rfl
  · exact branchError_withEarlier earlier _ line _ _

theorem endIf_withEarlier (arguments : String) :
    (state.withEarlier earlier).endIf line arguments =
      (state.endIf line arguments).withEarlier earlier := by
  unfold endIf
  simp only [rejectArguments_withEarlier, pass_withEarlier]
  split <;> rfl

/-! ### Lines -/

variable (system : FileSystem) (raw : String)

@[simp] theorem includeReference_withEarlier (target : String) :
    (state.withEarlier earlier).includeReference target = state.includeReference target := rfl

theorem noteInclude_withEarlier (target : String) :
    (state.withEarlier earlier).noteInclude system line raw target =
      (state.noteInclude system line raw target).withEarlier earlier := by
  unfold noteInclude
  simp only [includeReference_withEarlier, resolver_withEarlier, pass_withEarlier]
  generalize state.reader.resolver.resolve system (state.includeReference target)
    (some state.pass.path) = resolved
  rfl

theorem enterFile_refuse_withEarlier (reference : String) (target : Path) :
    (state.withEarlier earlier).enterFile .refuse line reference target =
      (state.enterFile .refuse line reference target).withEarlier earlier := by
  unfold enterFile
  by_cases reading : target ∈ state.reader.openFiles
  · rw [if_pos reading, openFiles_withEarlier, if_pos reading]
    exact report_withEarlier earlier state line _
  · rw [if_neg reading, openFiles_withEarlier, if_neg reading]
    exact report_withEarlier earlier (state.addInclude target) line _

theorem includeFile_withEarlier (target : String) :
    (state.withEarlier earlier).includeFile system .refuse line raw target =
      (state.includeFile system .refuse line raw target).withEarlier earlier := by
  rw [includeFile_eq, includeFile_eq, noteInclude_withEarlier]
  simp only [includeReference_withEarlier, resolver_withEarlier, pass_withEarlier]
  split
  · exact enterFile_refuse_withEarlier earlier _ line _ _
  all_goals exact report_withEarlier earlier _ line _

theorem follow_withEarlier (directive : Directive) :
    (state.withEarlier earlier).follow system .refuse line raw directive =
      (state.follow system .refuse line raw directive).withEarlier earlier := by
  cases directive with
  | openIf condition => exact openIf_withEarlier earlier state line condition
  | openIfDefined expected arguments =>
    exact openIfDefined_withEarlier earlier state line expected arguments
  | elseIf condition => exact elseIf_withEarlier earlier state line condition
  | elseBranch arguments => exact elseBranch_withEarlier earlier state line arguments
  | endIf arguments => exact endIf_withEarlier earlier state line arguments
  | includeFile target =>
    rw [follow, follow, includeFile_withEarlier]
    rfl
  | fail message => exact congrArg (·, none) (report_withEarlier earlier state line _)
  | inert => rfl

theorem directive_withEarlier (directive : Directive) :
    (state.withEarlier earlier).directive system .refuse line raw directive =
      (state.directive system .refuse line raw directive).withEarlier earlier := by
  have followed : (state.withEarlier earlier).followLive system .refuse line raw directive =
      (state.followLive system .refuse line raw directive).withEarlier earlier := by
    unfold followLive
    rw [pass_withEarlier]
    split
    · exact follow_withEarlier earlier state line system raw directive
    · rfl
  have marked (active : Bool) (outcome : Step) :
      markDead active line (outcome.withEarlier earlier) =
        (markDead active line outcome).withEarlier earlier := by
    unfold markDead
    by_cases dead : (outcome.2.isNone && !active && !outcome.1.pass.stack.isActive) = true
    · rw [if_pos dead]
      exact if_pos dead
    · rw [if_neg dead]
      exact if_neg dead
  rw [directive_eq, directive_eq, followed, marked, pass_withEarlier]

/-- A line that is refused every file does the same behind other problems. -/
theorem step_withEarlier :
    (state.withEarlier earlier).step system .refuse line raw =
      (state.step system .refuse line raw).withEarlier earlier := by
  unfold step
  split
  · rfl
  · split
    · exact directive_withEarlier earlier state line system raw _
    · rw [pass_withEarlier]
      split
      · exact congrArg (·, none) (declareLine_withEarlier earlier state line system raw)
      · rfl

theorem entryAt_withEarlier :
    (state.withEarlier earlier).entryAt? system line raw =
      (state.entryAt? system line raw).map (Entry.withEarlier earlier) := by
  have entered (target : String) :
      (state.withEarlier earlier).includeEntryAt? system line raw target =
        (state.includeEntryAt? system line raw target).map (Entry.withEarlier earlier) := by
    unfold includeEntryAt?
    simp only [includeReference_withEarlier, resolver_withEarlier, pass_withEarlier,
      openFiles_withEarlier, noteInclude_withEarlier]
    generalize state.noteInclude system line raw target = noted
    split
    · split <;> rfl
    · rfl
  unfold entryAt?
  split
  · rw [pass_withEarlier]
    split
    · exact entered _
    · rfl
  · rfl

end PassState

theorem Reader.finish_withEarlier (earlier : List Diagnostic) (state : PassState)
    (fatal : Option FatalError) :
    finish (state.withEarlier earlier) fatal = (finish state fatal).withEarlier earlier := by
  have ended : (state.withEarlier earlier).ending fatal = state.ending fatal := rfl
  unfold finish
  rw [ended]
  cases state.ending fatal with
  | none => rfl
  | some diagnostic =>
    simp only [PassState.withEarlier, withEarlier, report, record, List.append_assoc]

/-- Behind other problems a reader goes the same way, with the same journal. -/
theorem Runs.withEarlier {system : FileSystem} {depth line : Nat} {state : PassState}
    {lines : List String} {events : List ReadEvent} {outcome : Step} (earlier : List Diagnostic)
    (run : Runs system depth state line lines events outcome) :
    Runs system depth (state.withEarlier earlier) line lines events
      (outcome.withEarlier earlier) := by
  have unentered {state : PassState} {line : Nat} {raw : String}
      (stays : state.entryAt? system line raw = none) :
      (state.withEarlier earlier).entryAt? system line raw = none := by
    rw [PassState.entryAt_withEarlier, stays, Option.map_none]
  have entered {state : PassState} {line : Nat} {raw : String} {entry : Entry}
      (enters : state.entryAt? system line raw = some entry) :
      (state.withEarlier earlier).entryAt? system line raw = some (entry.withEarlier earlier) := by
    rw [PassState.entryAt_withEarlier, enters, Option.map_some]
  have taken {state : PassState} {line : Nat} {raw : String} {outcome : Step}
      (stepped : state.step system .refuse line raw = outcome) :
      (state.withEarlier earlier).step system .refuse line raw = outcome.withEarlier earlier := by
    rw [PassState.step_withEarlier, stepped]
  -- The journal holds no problems, so every step writes the same events into it.
  induction run with
  | done => exact .done
  | stop stays stopped => exact .stop (unentered stays) (taken stopped)
  | advance stays stepped _ ih =>
    exact (Runs.advance (unentered stays) (taken stepped) ih :)
  | shut enters blocked _ ih =>
    rw [← PassState.report_withEarlier] at ih
    exact (Runs.shut (entered enters) blocked ih :)
  | @enter depth state last line raw text rest entry inner events fatal outcome enters readable _ _
      innerIH ih =>
    -- The file that was entered ends behind the same problems.
    have closed : PassState.withEarlier earlier ⟨.finish last fatal, last.place, entry.state.pass⟩ =
        ⟨.finish (last.withEarlier earlier) fatal, last.place, entry.state.pass⟩ := by
      rw [Reader.finish_withEarlier]
      rfl
    rw [closed] at ih
    exact (Runs.enter (entered enters) readable innerIH ih :)

end FirmwareWorkspace
