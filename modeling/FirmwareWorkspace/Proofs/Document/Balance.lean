import FirmwareWorkspace.Proofs.Conditional.Bracket
import FirmwareWorkspace.Proofs.Document.Passes

/-!
# What a pass reports about its conditionals

The conditionals that a pass has open are those that the keywords of its lines opened and
did not close, in live and in dead code alike. A pass therefore ends with the verdict
that its keywords deserve, unless a condition fails first. It tells the verdict once:
lines report nothing of the kind, and the files that they include have other numbers.

Main result: `Reader.readText_balance`.
-/
namespace FirmwareWorkspace

open Expression (EvalError)

/-! ### Conditionals of a line -/

namespace ConditionalStack

theorem openLines_push (stack : ConditionalStack) (line : Nat) (value : Bool) :
    (stack.push line value).openLines = stack.openLines ++ [line] := by
  simp only [push, openLines, List.map_cons, List.reverse_cons]

theorem openLines_cons (top : Frame) (outer : List Frame) :
    openLines ⟨top :: outer⟩ = openLines ⟨outer⟩ ++ [top.openedAt] := by
  simp only [openLines, List.map_cons, List.reverse_cons]

theorem openLines_ne_nil (top : Frame) (outer : List Frame) : openLines ⟨top :: outer⟩ ≠ [] := by
  rw [openLines_cons]
  exact List.append_ne_nil_of_right_ne_nil _ (List.cons_ne_nil _ _)

/-- Frames that differ in their flags only stand for the same open lines. -/
theorem openLines_replace (top other : Frame) (outer : List Frame)
    (same : other.openedAt = top.openedAt) :
    openLines ⟨other :: outer⟩ = openLines ⟨top :: outer⟩ := by
  rw [openLines_cons, openLines_cons, same]

/-- Why a branch is refused tells whether a conditional is open. -/
def Refuses (stack : ConditionalStack) (error : BranchError) : Prop :=
  error = .underflow ∧ stack.openLines = [] ∨ error = .afterElse ∧ stack.openLines ≠ []

theorem elseIf_ok {ε : Type} (stack next : ConditionalStack) (condition : Unit → Except ε Bool)
    (failure : Option ε) (returned : stack.elseIf condition = .ok (next, failure)) :
    stack.openLines ≠ [] ∧ next.openLines = stack.openLines ∧
      ∀ error, failure = some error → condition () = .error error := by
  obtain ⟨frames⟩ := stack
  cases frames with
  | nil => cases returned
  | cons top outer =>
    refine ⟨openLines_ne_nil top outer, ?_⟩
    unfold elseIf at returned
    dsimp only at returned
    split at returned
    · cases returned
    · split at returned
      · split at returned
        · cases returned
          exact ⟨openLines_replace _ _ _ rfl, fun _ none => nomatch none⟩
        next failed =>
          cases returned
          refine ⟨openLines_replace _ _ _ rfl, fun _ same => ?_⟩
          cases same
          exact failed
      · cases returned
        exact ⟨openLines_replace _ _ _ rfl, fun _ none => nomatch none⟩

theorem elseIf_error {ε : Type} (stack : ConditionalStack) (condition : Unit → Except ε Bool)
    (error : BranchError) (returned : stack.elseIf condition = .error error) :
    stack.Refuses error := by
  obtain ⟨frames⟩ := stack
  cases frames with
  | nil =>
    cases returned
    exact .inl ⟨rfl, rfl⟩
  | cons top outer =>
    unfold elseIf at returned
    dsimp only at returned
    split at returned
    · cases returned
      exact .inr ⟨rfl, openLines_ne_nil top outer⟩
    · split at returned
      · split at returned <;> cases returned
      · cases returned

theorem elseBranch_ok (stack next : ConditionalStack) (returned : stack.elseBranch = .ok next) :
    stack.openLines ≠ [] ∧ next.openLines = stack.openLines := by
  obtain ⟨frames⟩ := stack
  cases frames with
  | nil => cases returned
  | cons top outer =>
    unfold elseBranch at returned
    dsimp only at returned
    split at returned
    · cases returned
    · cases returned
      exact ⟨openLines_ne_nil top outer, openLines_replace _ _ _ rfl⟩

theorem elseBranch_error (stack : ConditionalStack) (error : BranchError)
    (returned : stack.elseBranch = .error error) : stack.Refuses error := by
  obtain ⟨frames⟩ := stack
  cases frames with
  | nil =>
    cases returned
    exact .inl ⟨rfl, rfl⟩
  | cons top outer =>
    unfold elseBranch at returned
    dsimp only at returned
    split at returned
    · cases returned
      exact .inr ⟨rfl, openLines_ne_nil top outer⟩
    · cases returned

end ConditionalStack

namespace PassState

def openLines (state : PassState) : List Nat :=
  state.pass.stack.openLines

/-- What a line makes of the conditionals of its pass, and how it can stop the pass. -/
inductive Brackets (state : PassState) (line : Nat) (raw : String) : Step → Prop
  | goesOn (next : PassState)
      (follows : Follows line (Line.bracket? raw) state.openLines next.openLines) :
      Brackets state line raw (next, none)
  | dangles (next : PassState) (keyword : String) (spelled : Line.keyword? raw = some keyword)
      (ends : Line.bracket? raw = some .switches ∨ Line.bracket? raw = some .closes)
      (outside : state.openLines = []) :
      Brackets state line raw (next, some ⟨line, .underflow keyword⟩)
  | fails (next : PassState) (error : EvalError) (keyword : String)
      (spelled : Line.keyword? raw = some keyword)
      (conditional : keyword = "if" ∨ keyword = "elseif" ∧ state.openLines ≠ [])
      (fatal : error.isFatal = true) :
      Brackets state line raw (next, some ⟨line, .expression error⟩)

variable (state : PassState) (line : Nat) (raw : String)

theorem Brackets.of_plain (next : PassState) (plain : Line.bracket? raw = none)
    (same : next.pass.stack = state.pass.stack) : Brackets state line raw (next, none) := by
  refine .goesOn next ?_
  rw [plain, openLines, openLines, same]
  exact .plain _

theorem Brackets.of_opens (next : PassState) (value : Bool)
    (opens : Line.bracket? raw = some .opens)
    (pushed : next.pass.stack = state.pass.stack.push line value) :
    Brackets state line raw (next, none) := by
  refine .goesOn next ?_
  rw [opens, openLines, openLines, pushed, ConditionalStack.openLines_push]
  exact .opens _

theorem Brackets.of_switches (next : PassState) (switches : Line.bracket? raw = some .switches)
    (inside : state.openLines ≠ []) (same : next.openLines = state.openLines) :
    Brackets state line raw (next, none) := by
  refine .goesOn next ?_
  rw [switches, same]
  exact .switches _ inside

theorem reportSyntax_pass (result : Except EvalError Bool) :
    (state.reportSyntax line result).pass = state.pass := by
  unfold reportSyntax
  split <;> rfl

theorem rejectArguments_pass (directive arguments : String) :
    (state.rejectArguments line directive arguments).pass = state.pass := by
  unfold rejectArguments
  split <;> rfl

/-- Syntax errors are recovered from; every other error stops the file. -/
theorem isFatal_of_recovered (result : Except EvalError Bool) (error : EvalError)
    (failed : recovered result = .error error) : error.isFatal = true := by
  unfold recovered at failed
  split at failed
  · cases failed
  next other =>
    cases error with
    | badSyntax column fault => exact absurd failed (other column fault)
    | _ => rfl

theorem openIf_brackets (condition : String) (spelled : Line.keyword? raw = some "if") :
    Brackets state line raw (state.openIf line condition) := by
  have opens : Line.bracket? raw = some .opens := Line.bracket_of_keyword raw _ spelled
  unfold openIf
  dsimp only
  split
  next evaluated =>
    rw [ConditionalStack.openIf, if_pos evaluated]
    cases result : recovered (Expression.evaluateCondition state.reader.scope condition) with
    | ok value => exact .of_opens _ _ _ _ value opens rfl
    | error error => exact .fails _ _ _ spelled (.inl rfl) (isFatal_of_recovered _ _ result)
  · exact .of_opens _ _ _ _ false opens rfl

theorem openIfDefined_brackets (expected : Bool) (arguments : String)
    (opens : Line.bracket? raw = some .opens) :
    Brackets state line raw (state.openIfDefined line expected arguments) := by
  unfold openIfDefined
  split
  · exact .of_opens _ _ _ _ _ opens rfl
  · exact .of_opens _ _ _ _ _ opens rfl

theorem branchError_brackets (later : PassState) (same : later.pass = state.pass)
    (keyword : String) (error : BranchError) (spelled : Line.keyword? raw = some keyword)
    (switches : Line.bracket? raw = some .switches) (refuses : state.pass.stack.Refuses error) :
    Brackets state line raw (later.branchError line keyword error) := by
  rcases refuses with ⟨rfl, outside⟩ | ⟨rfl, inside⟩
  · exact .dangles _ _ spelled (.inl switches) outside
  -- A branch after the last one is reported, and the chain goes on as it was.
  · refine .of_switches _ _ _ _ switches inside ?_
    exact congrArg (fun pass : FilePass => pass.stack.openLines) same

theorem elseIf_brackets (condition : String) (spelled : Line.keyword? raw = some "elseif") :
    Brackets state line raw (state.elseIf line condition) := by
  have switches : Line.bracket? raw = some .switches := Line.bracket_of_keyword raw _ spelled
  unfold elseIf
  dsimp only
  -- The pass is the same whether or not the condition was evaluated.
  generalize reported : (if state.pass.stack.evaluatesElseIf then state.reportSyntax line
    (Expression.evaluateCondition state.reader.scope condition) else state) = later
  have same : later.pass = state.pass := by
    rw [← reported]
    split
    · exact reportSyntax_pass _ _ _
    · rfl
  split
  next error refused =>
    exact branchError_brackets _ _ _ later same _ error spelled switches
      (ConditionalStack.elseIf_error _ _ _ refused)
  next stack switched =>
    obtain ⟨inside, kept, _⟩ := ConditionalStack.elseIf_ok _ _ _ _ switched
    exact .of_switches _ _ _ _ switches inside kept
  next stack error switched =>
    obtain ⟨inside, _, failed⟩ := ConditionalStack.elseIf_ok _ _ _ _ switched
    exact .fails _ _ _ spelled (.inr ⟨rfl, inside⟩) (isFatal_of_recovered _ _ (failed error rfl))

theorem elseBranch_brackets (arguments : String) (spelled : Line.keyword? raw = some "else") :
    Brackets state line raw (state.elseBranch line arguments) := by
  have switches : Line.bracket? raw = some .switches := Line.bracket_of_keyword raw _ spelled
  have same := rejectArguments_pass state line "else" arguments
  unfold elseBranch
  dsimp only
  rw [same]
  split
  next stack switched =>
    obtain ⟨inside, kept⟩ := ConditionalStack.elseBranch_ok _ _ switched
    exact .of_switches _ _ _ _ switches inside kept
  next error refused =>
    exact branchError_brackets _ _ _ _ same _ error spelled switches
      (ConditionalStack.elseBranch_error _ _ refused)

theorem endIf_brackets (arguments : String) (spelled : Line.keyword? raw = some "endif") :
    Brackets state line raw (state.endIf line arguments) := by
  have closes : Line.bracket? raw = some .closes := Line.bracket_of_keyword raw _ spelled
  unfold endIf
  dsimp only
  rw [rejectArguments_pass]
  cases frames : state.pass.stack with
  | mk frames_ =>
  cases frames_ with
  | nil => exact .dangles _ _ spelled (.inr closes) (by rw [openLines, frames]; rfl)
  | cons top outer =>
    refine .goesOn _ ?_
    have innermost := ConditionalStack.openLines_cons top outer
    rw [closes, openLines, frames, innermost]
    exact .closes _ _

theorem includeFile_stack (system : FileSystem) (enter : Enter) (target : String) :
    (state.includeFile system enter line raw target).pass.stack = state.pass.stack := by
  rw [includeFile_eq, ← state.noteInclude_stack system line raw target]
  generalize state.noteInclude system line raw target = noted
  split
  · unfold enterFile
    split
    · rfl
    · dsimp only
      split <;> rfl
  all_goals rfl

theorem declareLine_stack (system : FileSystem) :
    (state.declareLine system line raw).pass.stack = state.pass.stack := by
  -- Declarations make no update that touches the conditionals.
  have survives : SurvivesDeclaring fun later => later.pass.stack = state.pass.stack :=
    ⟨fun _ _ _ _ same => same, fun _ _ _ same => same, fun _ _ _ same => same,
      fun _ _ _ same => same⟩
  exact survives.declareLine state system line raw rfl

theorem follow_brackets (system : FileSystem) (enter : Enter) (directive : Directive)
    (keyword : String) (spelled : Line.keyword? raw = some keyword)
    (spells : directive.SpelledBy keyword) :
    Brackets state line raw (state.follow system enter line raw directive) := by
  have bracket := Line.bracket_of_keyword raw keyword spelled
  cases directive with
  | openIf condition =>
    cases spells
    exact openIf_brackets state line raw condition spelled
  | openIfDefined expected arguments =>
    refine openIfDefined_brackets state line raw expected arguments ?_
    cases expected <;> cases spells <;> exact bracket
  | elseIf condition =>
    cases spells
    exact elseIf_brackets state line raw condition spelled
  | elseBranch arguments =>
    cases spells
    exact elseBranch_brackets state line raw arguments spelled
  | endIf arguments =>
    cases spells
    exact endIf_brackets state line raw arguments spelled
  | includeFile target =>
    exact .of_plain _ _ _ _ (bracket.trans spells) (includeFile_stack state line raw _ _ _)
  | fail message => exact .of_plain _ _ _ _ (bracket.trans spells) rfl
  | inert => exact .of_plain _ _ _ _ (bracket.trans spells) rfl

/-- Marking a line dead leaves the conditionals alone. -/
theorem Brackets.markDead (outcome : Step) (brackets : Brackets state line raw outcome)
    (wasActive : Bool) : Brackets state line raw (PassState.markDead wasActive line outcome) := by
  unfold PassState.markDead
  split
  · cases brackets with
    | goesOn next follows => exact .goesOn _ follows
    -- A line that stops the file is not marked.
    | dangles | fails => simp_all
  · exact brackets

/-- Every line does to the conditionals what its keyword says, in live and dead code. -/
theorem step_brackets (system : FileSystem) (enter : Enter) :
    Brackets state line raw (state.step system enter line raw) := by
  unfold step
  split
  next blank => exact .of_plain _ _ _ _ (Line.bracket_of_blank raw blank) rfl
  · split
    next directive parsed =>
      obtain ⟨keyword, spelled, spells⟩ := Line.keyword_of_directive raw directive parsed
      rw [directive_eq]
      refine .markDead _ _ _ _ ?_ _
      unfold followLive
      split
      · exact follow_brackets state line raw system enter directive keyword spelled spells
      next dead =>
        -- Only directives of conditionals are followed in dead code.
        refine .of_plain _ _ _ _ ?_ rfl
        rw [Line.bracket_of_keyword raw keyword spelled]
        cases directive <;> first | exact spells | simp [Directive.isConditional] at dead
    next plain =>
      have bracket := Line.bracket_of_no_directive raw plain
      split
      · exact .of_plain _ _ _ _ bracket (declareLine_stack state line raw system)
      · exact .of_plain _ _ _ _ bracket rfl

/-! ### Conditionals of a pass -/

/-- How lines end, seen from their keywords. -/
inductive Concludes (lines : List String) : Step → Prop
  | ends (final : PassState) (tracks : Tracks (lines.map Line.bracket?) final.openLines) :
      Concludes lines (final, none)
  | dangles (final : PassState) (line : Nat) (keyword : String)
      (spelled : lines[line]?.bind Line.keyword? = some keyword)
      (holds : (Verdict.underflow line).Holds (lines.map Line.bracket?)) :
      Concludes lines (final, some ⟨line, .underflow keyword⟩)
  | fails (final : PassState) (line : Nat) (error : EvalError) (keyword : String)
      (spelled : lines[line]?.bind Line.keyword? = some keyword)
      (conditional : keyword = "if" ∨ keyword = "elseif") (fatal : error.isFatal = true)
      (sound : ∀ earlier, earlier ≤ line → ¬Dangles (lines.map Line.bracket?) earlier) :
      Concludes lines (final, some ⟨line, .expression error⟩)

/-- Taking in lines keeps track of what the keywords in front have opened. -/
theorem steps_concludes (state : PassState) (system : FileSystem) (enter : Enter)
    (front lines : List String)
    (tracks : Tracks (front.map Line.bracket?) state.openLines) :
    Concludes (front ++ lines) (state.steps system enter front.length lines) := by
  induction lines generalizing state front with
  | nil =>
    rw [List.append_nil]
    exact .ends state tracks
  | cons raw rest ih =>
    have brackets := state.step_brackets front.length raw system enter
    have number : (front.map Line.bracket?).length = front.length := List.length_map _
    have here : (front ++ raw :: rest)[front.length]? = some raw := by simp
    unfold steps
    cases stepped : state.step system enter front.length raw with
    | mk next fatal =>
    rw [stepped] at brackets
    cases brackets with
    | goesOn _ follows =>
      rw [← number] at follows
      have followed := ih next (front ++ [raw]) (by
        rw [List.map_append]
        exact tracks.follow follows)
      rw [List.length_append, List.length_singleton, ← List.append_cons] at followed
      exact followed
    | dangles _ keyword spelled ends outside =>
      rw [outside] at tracks
      refine .dangles next _ keyword (by rw [here, Option.bind_some, spelled]) ?_
      rw [List.map_append, List.map_cons, ← number]
      exact tracks.underflow _ _ ends
    | fails _ error keyword spelled conditional fatal =>
      refine .fails next _ error keyword (by rw [here, Option.bind_some, spelled])
        (conditional.imp_right (·.1)) fatal fun earlier reached => ?_
      rw [List.map_append, List.map_cons]
      -- No line up to the error dangles: an opening never does, and a branch is inside a bracket.
      refine tracks.sound_until _ _ ?_ earlier (number ▸ reached)
      rcases conditional with rfl | ⟨_, inside⟩
      · exact .inl (Line.bracket_of_keyword raw _ spelled)
      · exact .inr inside

/-- Lines that do not stop the file can be taken in piece by piece. -/
theorem steps_append (state next : PassState) (system : FileSystem) (enter : Enter) (line : Nat)
    (front back : List String) (taken : state.steps system enter line front = (next, none)) :
    state.steps system enter line (front ++ back) =
      next.steps system enter (line + front.length) back := by
  induction front generalizing state line with
  | nil =>
    cases taken
    rfl
  | cons raw rest ih =>
    unfold steps at taken
    cases stepped : state.step system enter line raw with
    | mk later fatal =>
    rw [stepped] at taken
    cases fatal with
    | some error => cases taken
    | none =>
      rw [List.cons_append, steps, stepped, List.length_cons, ← Nat.add_assoc, Nat.add_right_comm]
      exact ih later (line + 1) taken

/-- Lines that stop at an error stop at its line, and those in front of it are taken in. -/
theorem exists_of_fatal (state : PassState) (system : FileSystem) (enter : Enter) (line : Nat)
    (lines : List String) (final : PassState) (error : FatalError)
    (stopped : state.steps system enter line lines = (final, some error)) :
    ∃ index last raw, error.line = line + index ∧ lines[index]? = some raw ∧
      state.steps system enter line (lines.take index) = (last, none) ∧
      last.step system enter error.line raw = (final, some error) := by
  -- The error is that of the first line that has one; the lines in front only move the state.
  induction lines generalizing state line with
  | nil => cases stopped
  | cons raw rest ih =>
    have brackets := state.step_brackets line raw system enter
    unfold steps at stopped
    cases stepped : state.step system enter line raw with
    | mk next fatal =>
    rw [stepped] at brackets stopped
    cases brackets with
    | goesOn =>
      obtain ⟨index, last, failing, number, here, reached, fails⟩ := ih next (line + 1) stopped
      refine ⟨index + 1, last, failing, by omega, here, ?_, fails⟩
      rw [List.take_succ_cons, steps, stepped]
      exact reached
    | dangles | fails =>
      cases stopped
      exact ⟨0, state, raw, rfl, rfl, rfl, stepped⟩

/-- Lines behind the one that stops a file make no difference. -/
theorem steps_of_fatal (state : PassState) (system : FileSystem) (enter : Enter) (line : Nat)
    (lines : List String) (final : PassState) (error : FatalError)
    (stopped : state.steps system enter line lines = (final, some error)) :
    line ≤ error.line ∧ ∀ other : List String,
      other.take (error.line + 1 - line) = lines.take (error.line + 1 - line) →
      state.steps system enter line other = (final, some error) := by
  obtain ⟨index, last, raw, number, here, reached, fails⟩ :=
    state.exists_of_fatal system enter line lines final error stopped
  refine ⟨number ▸ Nat.le_add_right line index, fun other shared => ?_⟩
  have count : error.line + 1 - line = index + 1 := by omega
  obtain ⟨inside, _⟩ := List.getElem?_eq_some_iff.mp here
  have split : other = lines.take index ++ raw :: other.drop (index + 1) := calc
    other = other.take (index + 1) ++ other.drop (index + 1) := (List.take_append_drop _ _).symm
    _ = lines.take index ++ raw :: other.drop (index + 1) := by
      rw [← count, shared, count, List.take_add_one, here, Option.toList_some, List.append_assoc,
        List.singleton_append]
  rw [split, state.steps_append last system enter line _ _ reached,
    List.length_take_of_le (Nat.le_of_lt inside), ← number, steps, fails]

end PassState

/-! ### Reports about other things -/

/-- A diagnostic about how the conditionals of a file end: a failed condition, an underflow
or conditionals left open. -/
def Diagnostic.isAboutBalance (file : FileId) (diagnostic : Diagnostic) : Bool :=
  diagnostic.location.file = file ∧
    diagnostic.problem.code ∈ [some "E0003", some "E0004", some "E0005", some "E0006"]

theorem Diagnostic.not_isAboutBalance_of_routine (file : FileId) (diagnostic : Diagnostic)
    (routine : diagnostic.problem.isRoutine = true) : diagnostic.isAboutBalance file = false := by
  unfold isAboutBalance
  cases kind : diagnostic.problem with
  | fatal | unterminatedConditional | custom | unresolvedLibrary | ambiguousLibrary =>
    rw [kind] at routine
    cases routine
  | _ => simp [Problem.code]

theorem Diagnostic.not_isAboutBalance_of_file (file : FileId) (diagnostic : Diagnostic)
    (other : diagnostic.location.file ≠ file) : diagnostic.isAboutBalance file = false := by
  simp [isAboutBalance, other]

namespace PassState

/-- A later state has reported nothing about how a file ends. -/
def Silent (file : FileId) (state later : PassState) : Prop :=
  ∃ added, later.reader.diagnostics = state.reader.diagnostics ++ added ∧
    ∀ diagnostic ∈ added, diagnostic.isAboutBalance file = false

namespace Silent

variable {file : FileId} {state later : PassState}

theorem refl (file : FileId) (state : PassState) : Silent file state state :=
  ⟨[], (List.append_nil _).symm, fun _ member => nomatch member⟩

theorem trans {last : PassState} (first : Silent file state later)
    (second : Silent file later last) : Silent file state last := by
  obtain ⟨added, extended, silent⟩ := first
  obtain ⟨more, further, silentToo⟩ := second
  refine ⟨added ++ more, ?_, fun diagnostic member => ?_⟩
  · rw [further, extended, List.append_assoc]
  · rcases List.mem_append.mp member with member | member
    · exact silent diagnostic member
    · exact silentToo diagnostic member

theorem report (silent : Silent file state later) (diagnostic : Diagnostic)
    (other : diagnostic.isAboutBalance file = false) :
    Silent file state { later with reader := later.reader.report diagnostic } := by
  refine silent.trans ⟨[diagnostic], rfl, fun _ member => ?_⟩
  rw [List.mem_singleton.mp member]
  exact other

theorem survives (file : FileId) (state : PassState) : Survives (Silent file state) where
  diagnostic _ diagnostic _ routine silent :=
    silent.report diagnostic (diagnostic.not_isAboutBalance_of_routine file routine)
  tables later context kept silent := by
    obtain ⟨added, extended, other⟩ := silent
    exact ⟨added, kept.trans extended, other⟩
  place _ _ _ silent := silent
  symbol _ _ _ silent := silent
  stack _ _ silent := silent
  inactive _ _ silent := silent
  inclusion _ _ silent := silent

end Silent

end PassState

theorem PassState.ending_file (state : PassState) (fatal : Option FatalError)
    (diagnostic : Diagnostic) (ending : state.ending fatal = some diagnostic) :
    diagnostic.location.file = state.pass.file := by
  unfold PassState.ending at ending
  split at ending
  · cases ending
    rfl
  · cases ending
  · cases ending
    rfl

theorem PassState.fatal_of_ending (state : PassState) (fatal : Option FatalError)
    (diagnostic : Diagnostic) (error : FatalError) (ending : state.ending fatal = some diagnostic)
    (told : diagnostic.problem = .fatal error) : fatal = some error := by
  unfold PassState.ending at ending
  split at ending
  · cases ending
    exact congrArg some (Problem.fatal.inj told)
  · cases ending
  · cases ending
    cases told

/-- The end of a pass over another file tells nothing about how a file ends. -/
theorem PassState.Silent.finish {file : FileId} {state last : PassState}
    (silent : state.Silent file last) (other : last.pass.file ≠ file) (fatal : Option FatalError)
    (place : SectionState) (pass : FilePass) :
    state.Silent file ⟨.finish last fatal, place, pass⟩ := by
  refine silent.trans ⟨(last.ending fatal).toList, Reader.finish_diagnostics last fatal,
    fun diagnostic member => ?_⟩
  have ended := last.ending_file fatal diagnostic (Option.mem_toList.mp member)
  exact diagnostic.not_isAboutBalance_of_file file (ended ▸ other)

/-- Lines report nothing about how the conditionals of an open file end, nor do the files
that they include. -/
theorem Runs.silent {system : FileSystem} {depth line : Nat} {state : PassState}
    {lines : List String} {events : List ReadEvent} {outcome : Step}
    (run : Runs system depth state line lines events outcome) (file : FileId) (path : Path)
    (known : state.reader.files.path? file = some path)
    (reading : path ∈ state.reader.openFiles) :
    outcome.1.reader.files.path? file = some path ∧ state.Silent file outcome.1 := by
  induction run with
  | done => exact ⟨known, .refl file _⟩
  | @stop _ state _ line raw _ _ _ stopped =>
    have keeps := PassState.Keeps.of_step stopped
    have silent := (PassState.Silent.survives file state).of_step stopped (.refl _ _)
    exact ⟨keeps.files ▸ known, silent⟩
  | @advance _ state _ line raw _ _ _ _ stepped _ ih =>
    have keeps := PassState.Keeps.of_step stepped
    have silent := (PassState.Silent.survives file state).of_step stepped (.refl _ _)
    have ⟨kept, later⟩ := ih (keeps.files ▸ known) (keeps.openFiles ▸ reading)
    exact ⟨kept, silent.trans later⟩
  | @shut _ state line raw _ entry _ _ enters _ _ ih =>
    have keeps := PassState.Keeps.of_entry enters
    have silent := (PassState.Silent.survives file state).entry enters
      (.refl _ _)
    have ⟨kept, later⟩ := ih (keeps.files ▸ known) (keeps.openFiles ▸ reading)
    refine ⟨kept, .trans (silent.report _ ?_) later⟩
    exact Diagnostic.not_isAboutBalance_of_routine file _ rfl
  | @enter _ state last line raw _ _ entry _ _ fatal _ enters _ inside _ innerIH ih =>
    have keeps := PassState.Keeps.of_entry enters
    have silent := (PassState.Silent.survives file state).entry enters
      (.refl _ _)
    -- The entered file is another one, since the file with this number is open.
    have another := state.entry_file_ne system line raw entry enters file path known reading
    rw [← keeps.files] at known
    rw [← keeps.openFiles] at reading
    have ⟨numbered, within⟩ := innerIH
      (FileSet.path_of_number _ entry.target.normalize path file known) (.tail _ reading)
    have other : last.pass.file ≠ file := by
      rw [inside.stays.2.2.2]
      exact another
    have entered : entry.state.Silent file last := within
    have resumed := entered.finish other fatal last.place entry.state.pass
    have ⟨kept, later⟩ := ih (by rw [Reader.finish_files]; exact numbered)
      (by
        have stays : last.reader.openFiles = entry.target.normalize :: _ := inside.stays.1
        rw [Reader.finish_openFiles, stays]
        exact reading)
    exact ⟨kept, silent.trans (resumed.trans later)⟩

/-! ### The report of a pass -/

/-- What a pass tells about its conditionals, given the verdict on its keywords. -/
inductive BalanceReport (file : FileId) (lines : List String) (verdict : Verdict) :
    List Diagnostic → Prop
  | balanced (deserved : verdict = .balanced) : BalanceReport file lines verdict []
  | underflow (line : Nat) (keyword : String) (deserved : verdict = .underflow line)
      (spelled : lines[line]?.bind Line.keyword? = some keyword) :
      BalanceReport file lines verdict
        [.plain ⟨file, line⟩ (.fatal ⟨line, .underflow keyword⟩)]
  | unterminated (line count : Nat) (deserved : verdict = .unterminated line count) :
      BalanceReport file lines verdict [.plain ⟨file, line⟩ (.unterminatedConditional count)]
  /-- A condition fails in front of the line where the pass would have stopped. -/
  | failed (line : Nat) (error : EvalError) (keyword : String)
      (spelled : lines[line]?.bind Line.keyword? = some keyword)
      (conditional : keyword = "if" ∨ keyword = "elseif") (fatal : error.isFatal = true)
      (earlier : ∀ other, verdict = .underflow other → line < other) :
      BalanceReport file lines verdict
        [.plain ⟨file, line⟩ (.fatal ⟨line, .expression error⟩)]

theorem PassState.Concludes.report {lines : List String} {outcome : Step}
    (concludes : PassState.Concludes lines outcome) (verdict : Verdict)
    (deserved : ∀ other : Verdict, other.Holds (lines.map Line.bracket?) ↔ other = verdict) :
    BalanceReport outcome.1.pass.file lines verdict
      ((outcome.1.ending outcome.2).toList.filter
        (Diagnostic.isAboutBalance outcome.1.pass.file)) := by
  cases concludes with
  | ends final tracks =>
    unfold PassState.ending
    cases openLines : final.pass.stack.openLines with
    | nil =>
      rw [PassState.openLines, openLines] at tracks
      exact .balanced ((deserved _).mp tracks.balanced).symm
    | cons first rest =>
      rw [PassState.openLines, openLines] at tracks
      have told : Diagnostic.isAboutBalance final.pass.file (.plain ⟨final.pass.file, first⟩
        (.unterminatedConditional (rest.length + 1))) = true := by
        simp [Diagnostic.isAboutBalance, Diagnostic.plain, Problem.code]
      rw [Option.toList_some, List.filter_cons_of_pos told]
      exact .unterminated _ _ ((deserved _).mp tracks.unterminated).symm
  | dangles final line keyword spelled holds =>
    have told : Diagnostic.isAboutBalance final.pass.file (.plain ⟨final.pass.file, line⟩
      (.fatal ⟨line, .underflow keyword⟩)) = true := by
      simp [Diagnostic.isAboutBalance, Diagnostic.plain, Problem.code]
    rw [PassState.ending, Option.toList_some, List.filter_cons_of_pos told]
    exact .underflow line keyword ((deserved _).mp holds).symm spelled
  | fails final line error keyword spelled conditional fatal sound =>
    have told : Diagnostic.isAboutBalance final.pass.file (.plain ⟨final.pass.file, line⟩
      (.fatal ⟨line, .expression error⟩)) = true := by
      cases error with
      | badSyntax => cases fatal
      | _ => simp [Diagnostic.isAboutBalance, Diagnostic.plain, Problem.code]
    rw [PassState.ending, Option.toList_some, List.filter_cons_of_pos told]
    refine .failed line error keyword spelled conditional fatal fun other same => ?_
    -- The first line that dangles cannot be one of those up to the failure.
    cases (deserved _).mpr same.symm with
    | underflow _ dangles => exact Nat.lt_of_not_le fun reached => sound other reached dangles

/-- A pass over a file reports the verdict that its keywords deserve, or a condition that fails
before; it does so once, and takes in nothing behind the line at which it stops. -/
theorem Reader.readText_balance (system : FileSystem) (depth : Nat) (path : Path)
    (inherited : Option Dialect) (place : SectionState) (reader : Reader) (text : String) :
    let read := fun text =>
      readText system (.upTo system depth) path.normalize inherited text place reader
    let file := (read text).1
    ∃ (verdict : Verdict) (added reports : List Diagnostic),
      (∀ other : Verdict,
        other.Holds ((Text.lines text).map Line.bracket?) ↔ other = verdict) ∧
      (read text).2.2.diagnostics = reader.diagnostics ++ added ∧
      added.filter (Diagnostic.isAboutBalance file) = reports ∧
      BalanceReport file (Text.lines text) verdict reports ∧
      ∀ error, .plain ⟨file, error.line⟩ (.fatal error) ∈ reports →
        ∀ other, (Text.lines other).take (error.line + 1) =
          (Text.lines text).take (error.line + 1) → read other = read text := by
  intro read file
  let start := PassState.opening reader path.normalize inherited place
  have opened (text : String) : read text =
      let outcome := start.steps system (.upTo system depth) 0 (Text.lines text)
      (start.pass.file, outcome.1.place, finish outcome.1 outcome.2) := rfl
  have run := Runs.of_steps system depth 0 start (Text.lines text)
  have concludes := start.steps_concludes system (.upTo system depth) [] (Text.lines text) .nil
  have own := run.stays.2.2.2
  have known : start.reader.files.path? start.pass.file = some path.normalize := by
    have numbered := FileSet.path_number reader.files path.normalize
    rwa [Path.normalize_normalize] at numbered
  obtain ⟨_, added, extended, silent⟩ := run.silent start.pass.file path.normalize known (.head _)
  obtain ⟨verdict, deserved⟩ := existsUnique_verdict ((Text.lines text).map Line.bracket?)
  have report := concludes.report verdict deserved
  have unsaid : added.filter (Diagnostic.isAboutBalance file) = [] :=
    List.filter_eq_nil_iff.mpr fun diagnostic member =>
      Bool.eq_false_iff.mp (silent diagnostic member)
  cases outcome : start.steps system (.upTo system depth) 0 (Text.lines text) with
  | mk final fatal =>
  rw [outcome] at own extended
  rw [List.length_nil, List.nil_append, outcome, own] at report
  refine ⟨verdict, added ++ (final.ending fatal).toList, _, deserved, ?_, rfl, ?_, ?_⟩
  · rw [opened, outcome]
    exact (finish_diagnostics final fatal).trans (by rw [extended, List.append_assoc]; rfl)
  · rw [List.filter_append, unsaid, List.nil_append]
    exact report
  · intro error told other shared
    -- Only the end of the pass can have told the error, so it is what stopped the pass.
    rw [List.filter_append, unsaid, List.nil_append] at told
    have ended := Option.mem_toList.mp (List.mem_filter.mp told).1
    cases final.fatal_of_ending fatal _ error ended rfl
    obtain ⟨_, same⟩ := start.steps_of_fatal system _ 0 _ final error outcome
    rw [opened, opened, outcome, same (Text.lines other) shared]

end FirmwareWorkspace
