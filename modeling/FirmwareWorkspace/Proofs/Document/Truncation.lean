import FirmwareWorkspace.Configuration
import FirmwareWorkspace.Proofs.Document.Balance
import FirmwareWorkspace.Proofs.Path.Joining
import FirmwareWorkspace.Proofs.Text.Blank

/-!
# Files that stop early

A fatal error stops the pass over its file. The line that fails leaves nothing but reports,
so what the pass leaves is what it would leave if the text ended in front of that line: the
tables, the section, the documents and the files that are open are the same, and the problems
differ in those of that line and in a report about conditionals left open. An including pass
goes on with its next line, among its own conditionals.

Main result: `Reader.readText_of_fatal`.
-/
namespace FirmwareWorkspace

/-! ### The lines in front of a line -/

namespace Chars

/-- The text through its line feed with the given number, or all of it. -/
def firstLines : Nat → List Char → List Char
  | 0, _ => []
  | _ + 1, [] => []
  | count + 1, c :: rest => c :: firstLines (if c = '\n' then count else count + 1) rest

theorem firstLines_append_cons (count : Nat) (line rest : List Char) (whole : '\n' ∉ line) :
    firstLines (count + 1) (line ++ '\n' :: rest) = line ++ '\n' :: firstLines count rest := by
  induction line with
  | nil => rfl
  | cons c line ih =>
    have ⟨other, later⟩ := not_or.mp (mt List.mem_cons.mpr whole)
    rw [List.cons_append, firstLines, if_neg (Ne.symm other), ih later, List.cons_append]

theorem firstLines_of_no_feed (count : Nat) (cs : List Char) (whole : '\n' ∉ cs) :
    firstLines (count + 1) cs = cs := by
  induction cs with
  | nil => rfl
  | cons c rest ih =>
    have ⟨other, later⟩ := not_or.mp (mt List.mem_cons.mpr whole)
    rw [firstLines, if_neg (Ne.symm other), ih later]

theorem fields_of_no_feed (cs : List Char) (whole : '\n' ∉ cs) : fields (· == '\n') cs = [cs] :=
  fields_of_solid _ cs fun _ member => beq_eq_false_iff_ne.mpr (ne_of_mem_of_not_mem member whole)

theorem lines_of_no_feed (cs : List Char) (whole : '\n' ∉ cs) :
    lines cs = if cs = [] then [] else [cs] := by
  simp [lines, fields_of_no_feed cs whole]

theorem lines_append_cons (line rest : List Char) (whole : '\n' ∉ line) :
    lines (line ++ '\n' :: rest) = dropReturn line :: lines rest := by
  have pieces : fields (· == '\n') (line ++ '\n' :: rest) = line :: fields (· == '\n') rest := by
    rw [fields_append_cons (· == '\n') line rest '\n' (beq_self_eq_true '\n'),
      fields_of_no_feed line whole, List.singleton_append]
  have more : fields (· == '\n') rest ≠ [] := by
    rw [fields_eq_splitOnP]
    exact List.splitOnP_ne_nil _ rest
  simp only [lines, pieces, List.dropLast_cons_of_ne_nil more, List.map_cons, List.cons_append,
    List.getLast?_cons_of_ne_nil more]

theorem lines_firstLines (count : Nat) (cs : List Char) :
    lines (firstLines count cs) = (lines cs).take count := by
  induction count generalizing cs with
  | zero => rw [List.take_zero, firstLines, lines_of_no_feed [] List.not_mem_nil, if_pos rfl]
  | succ count ih =>
    by_cases feed : '\n' ∈ cs
    · obtain ⟨line, rest, rfl, whole⟩ := List.eq_append_cons_of_mem feed
      rw [firstLines_append_cons count line rest whole, lines_append_cons line _ whole,
        lines_append_cons line rest whole, ih rest, List.take_succ_cons]
    · -- What is left is one line or nothing.
      rw [firstLines_of_no_feed count cs feed, lines_of_no_feed cs feed]
      split
      · rw [List.take_nil]
      · rw [List.take_succ_cons, List.take_nil]

end Chars

/-- The text of the first lines of a text. -/
def Text.firstLines (count : Nat) (text : String) : String :=
  .ofList (Chars.firstLines count text.toList)

theorem Text.lines_firstLines (count : Nat) (text : String) :
    lines (firstLines count text) = (lines text).take count := by
  rw [lines, lines, firstLines, String.toList_ofList, Chars.lines_firstLines, List.map_take]

/-! ### The line that fails -/

namespace PassState

/-- A later state differs in the conditionals of its pass and in problems reported with a line
of it only. -/
structure Noted (state : PassState) (line : Nat) (later : PassState) : Prop where
  place : later.place = state.place
  pass : later.pass = { state.pass with stack := later.pass.stack }
  reader : later.reader = { state.reader with diagnostics := later.reader.diagnostics }
  diagnostics : ∃ notes, later.reader.diagnostics = state.reader.diagnostics ++ notes ∧
    ∀ note ∈ notes, note.location = ⟨state.pass.file, line⟩

namespace Noted

variable {state later : PassState} {line : Nat}

theorem refl (state : PassState) (line : Nat) : Noted state line state :=
  ⟨rfl, rfl, rfl, [], (List.append_nil _).symm, fun _ member => nomatch member⟩

theorem file (noted : Noted state line later) : later.pass.file = state.pass.file :=
  congrArg (·.file) noted.pass

theorem setStack (noted : Noted state line later) (stack : ConditionalStack) :
    Noted state line (later.setStack stack) :=
  ⟨noted.place, congrArg (fun pass : FilePass => { pass with stack }) noted.pass, noted.reader,
    noted.diagnostics⟩

theorem report (noted : Noted state line later) (problem : Problem) :
    Noted state line (later.report line problem) := by
  obtain ⟨notes, extended, own⟩ := noted.diagnostics
  refine ⟨noted.place, noted.pass, ?_, notes ++ [.plain ⟨later.pass.file, line⟩ problem], ?_, ?_⟩
  · exact congrArg (fun reader : Reader => reader.report _) noted.reader
  · rw [← List.append_assoc, ← extended]
    rfl
  · intro note member
    rcases List.mem_append.mp member with old | new
    · exact own note old
    · rw [List.mem_singleton.mp new, ← noted.file]
      rfl

theorem reportSyntax (noted : Noted state line later)
    (result : Except Expression.EvalError Bool) :
    Noted state line (later.reportSyntax line result) := by
  unfold PassState.reportSyntax
  split
  · exact noted.report _
  · exact noted

theorem rejectArguments (noted : Noted state line later) (directive arguments : String) :
    Noted state line (later.rejectArguments line directive arguments) := by
  unfold PassState.rejectArguments
  split
  · exact noted
  · exact noted.report _

theorem branchError (noted : Noted state line later) (directive : String) (error : BranchError) :
    Noted state line (later.branchError line directive error).1 := by
  cases error with
  | underflow => exact noted
  | afterElse => exact noted.report _

end Noted

variable (state : PassState) (line : Nat)

theorem openIf_noted (condition : String) : Noted state line (state.openIf line condition).1 := by
  unfold openIf
  dsimp only
  split
  · split
    · exact ((Noted.refl state line).reportSyntax _).setStack _
    · exact (Noted.refl state line).reportSyntax _
  · exact (Noted.refl state line).setStack _

theorem openIfDefined_noted (expected : Bool) (arguments : String) :
    Noted state line (state.openIfDefined line expected arguments).1 := by
  unfold openIfDefined
  split
  · exact (Noted.refl state line).setStack _
  · exact ((Noted.refl state line).report _).setStack _

/-- A failing condition has settled its chain already, which only the conditionals show. -/
theorem elseIf_noted (condition : String) : Noted state line (state.elseIf line condition).1 := by
  unfold elseIf
  dsimp only
  -- The condition is evaluated only if no branch was taken; both states are noted.
  generalize reported : (if state.pass.stack.evaluatesElseIf then state.reportSyntax line
    (Expression.evaluateCondition state.reader.scope condition) else state) = later
  have noted : Noted state line later := by
    rw [← reported]
    split
    · exact (Noted.refl state line).reportSyntax _
    · exact .refl state line
  split
  · exact noted.branchError _ _
  · exact noted.setStack _
  · exact noted.setStack _

theorem elseBranch_noted (arguments : String) :
    Noted state line (state.elseBranch line arguments).1 := by
  have noted := (Noted.refl state line).rejectArguments "else" arguments
  unfold elseBranch
  dsimp only
  split
  · exact noted.setStack _
  · exact noted.branchError _ _

theorem endIf_noted (arguments : String) : Noted state line (state.endIf line arguments).1 := by
  have noted := (Noted.refl state line).rejectArguments "endif" arguments
  unfold endIf
  dsimp only
  split
  · exact noted.setStack _
  · exact noted

variable (system : FileSystem) (enter : Enter) (raw : String)

/-- Only conditional directives stop a file, and they do nothing but report. -/
theorem follow_of_fatal (directive : Directive) (final : PassState) (error : FatalError)
    (stopped : state.follow system enter line raw directive = (final, some error)) :
    Noted state line final := by
  have reached : (state.follow system enter line raw directive).1 = final :=
    congrArg Prod.fst stopped
  cases directive with
  | openIf condition => exact reached ▸ openIf_noted state line condition
  | openIfDefined expected arguments =>
    exact reached ▸ openIfDefined_noted state line expected arguments
  | elseIf condition => exact reached ▸ elseIf_noted state line condition
  | elseBranch arguments => exact reached ▸ elseBranch_noted state line arguments
  | endIf arguments => exact reached ▸ endIf_noted state line arguments
  | includeFile | fail | inert => cases stopped

/-- The line that stops a pass leaves reports and conditionals. -/
theorem step_of_fatal (final : PassState) (error : FatalError)
    (stopped : state.step system enter line raw = (final, some error)) :
    Noted state line final := by
  unfold step at stopped
  split at stopped
  · cases stopped
  · split at stopped
    next directive _ =>
      rw [directive_eq] at stopped
      unfold markDead at stopped
      split at stopped
      · cases stopped
      · unfold followLive at stopped
        split at stopped
        · exact follow_of_fatal state line system enter raw directive final error stopped
        · cases stopped
    · split at stopped <;> cases stopped

/-- Of the line that stops a pass, reports are left beside what the lines in front of it did. -/
theorem steps_until_fatal (lines : List String) (final : PassState) (error : FatalError)
    (stopped : state.steps system enter line lines = (final, some error)) :
    ∃ index last, error.line = line + index ∧ index < lines.length ∧
      state.steps system enter line (lines.take index) = (last, none) ∧
      Noted last error.line final := by
  obtain ⟨index, last, raw, number, here, reached, fails⟩ :=
    state.exists_of_fatal system enter line lines final error stopped
  obtain ⟨inside, _⟩ := List.getElem?_eq_some_iff.mp here
  exact ⟨index, last, number, inside, reached,
    last.step_of_fatal error.line system enter raw final error fails⟩

end PassState

/-! ### The end of the pass -/

namespace Reader

/-- Documents tell nothing of the conditionals of a pass. -/
theorem recordIn_stack (pass : FilePass) (stack : ConditionalStack) (documents : List Document) :
    recordIn { pass with stack } documents = recordIn pass documents := by
  induction documents with
  | nil => rfl
  | cons first rest ih =>
    rw [recordIn, recordIn, ih]
    rfl

theorem finish_of_ending (state : PassState) (fatal : Option FatalError) :
    finish state fatal =
      { state.reader with
        openFiles := state.reader.openFiles.tail
        diagnostics := state.reader.diagnostics ++ (state.ending fatal).toList
        documents := recordIn state.pass state.reader.documents } := by
  obtain ⟨diagnostics, finished⟩ := finish_eq state fatal
  have told := finish_diagnostics state fatal
  rw [finished] at told ⊢
  rw [← told]

end Reader

/-- What a file leaves that stops at an error, beside what the lines in front of it leave. -/
structure Truncated (error : FatalError) (whole cut : FileId × SectionState × Reader) : Prop where
  file : whole.1 = cut.1
  place : whole.2.1 = cut.2.1
  /-- Tables, documents and open files are the same. -/
  reader : whole.2.2 = { cut.2.2 with diagnostics := whole.2.2.diagnostics }
  /-- The file adds problems of the line, its error last; the lines in front may leave
  conditionals open. -/
  diagnostics : ∃ shared notes unclosed : List Diagnostic,
    whole.2.2.diagnostics =
      shared ++ notes ++ [.plain ⟨whole.1, error.line⟩ (.fatal error)] ∧
    cut.2.2.diagnostics = shared ++ unclosed ∧
    (∀ note ∈ notes, note.location = ⟨whole.1, error.line⟩) ∧
    (unclosed = [] ∨ ∃ first count,
      unclosed = [.plain ⟨whole.1, first⟩ (.unterminatedConditional count)])

namespace PassState

/-- Conditionals left open are all that the end of a pass can report without an error. -/
theorem ending_none (state : PassState) :
    (state.ending none).toList = [] ∨ ∃ first count,
      (state.ending none).toList =
        [.plain ⟨state.pass.file, first⟩ (.unterminatedConditional count)] := by
  unfold ending
  cases state.pass.stack.openLines with
  | nil => exact .inl rfl
  | cons first rest => exact .inr ⟨first, rest.length + 1, rfl⟩

/-- A pass that ends with reports of one line leaves what it leaves without them. -/
theorem Noted.truncated {last final : PassState} {error : FatalError}
    (noted : Noted last error.line final) (file : FileId) (own : last.pass.file = file) :
    Truncated error (file, final.place, .finish final (some error))
      (file, last.place, .finish last none) := by
  obtain ⟨notes, extended, located⟩ := noted.diagnostics
  have finished := Reader.finish_of_ending final (some error)
  refine ⟨rfl, noted.place, ?_, last.reader.diagnostics, notes, (last.ending none).toList,
    ?_, Reader.finish_diagnostics last none, fun note member => own ▸ located note member,
    own ▸ last.ending_none⟩
  · -- The conditionals are where the passes differ, and no document holds them.
    rw [Reader.finish_of_ending last none, finished, noted.pass, noted.reader,
      Reader.recordIn_stack]
  · rw [Reader.finish_diagnostics, extended, ← own, ← noted.file]
    rfl

end PassState

/-! ### The including pass -/

namespace Reader

variable (system : FileSystem) (depth : Nat) (path : Path) (inherited : Option Dialect)
  (place : SectionState) (reader : Reader) (text : String)

theorem readText_eq (enter : Enter) :
    readText system enter path inherited text place reader =
      let start := PassState.opening reader path inherited place
      let outcome := start.steps system enter 0 (Text.lines text)
      (start.pass.file, outcome.1.place, finish outcome.1 outcome.2) := rfl

theorem readFile_eq_readText (readable : system.read path.normalize = .ok text) :
    readFile system (depth + 1) path inherited place reader =
      .ok (readText system (.upTo system depth) path.normalize inherited text place reader) := by
  simp only [readFile, readable]
  rfl

/-- A pass closes its file when it ends, whatever ends it. -/
theorem readText_openFiles :
    (readText system (.upTo system depth) path inherited text place reader).2.2.openFiles =
      reader.openFiles := by
  let start := PassState.opening reader path inherited place
  have stays := (Runs.of_steps system depth 0 start (Text.lines text)).stays.1
  rw [readText_eq]
  exact (finish_openFiles _ _).trans (congrArg List.tail stays)

end Reader

/-- An include enters a file with these inputs of its pass. -/
structure Entry.Enters (entry : Entry) (path : Path) (inherited : Option Dialect)
    (place : SectionState) (reader : Reader) : Prop where
  target : entry.target.normalize = path.normalize
  dialect : some entry.state.pass.dialect = inherited
  place : entry.state.place = place
  reader : entry.state.reader = reader

/-- The including pass as the pass over an included file leaves it. -/
def Entry.after (entry : Entry) (result : FileId × SectionState × Reader) : PassState :=
  { entry.state with place := result.2.1, reader := result.2.2 }

namespace PassState

variable {system : FileSystem} {state : PassState} {number : Nat} {raw : String} {entry : Entry}

theorem after_stack (enters : state.entryAt? system number raw = some entry)
    (result : FileId × SectionState × Reader) :
    (entry.after result).pass.stack = state.pass.stack := by
  obtain ⟨target, _, _, _, rfl⟩ := (entry_eq_some_iff _ _ _ _ _).mp enters
  rw [Entry.after, addInclude]
  exact noteInclude_stack state system number raw target

/-- A line that enters a file is followed by the next one, from what the pass over the file
left. -/
theorem steps_of_entry {path : Path} {inherited : Option Dialect} {place : SectionState}
    {reader : Reader} {text : String} (depth : Nat) (rest : List String)
    (enters : state.entryAt? system number raw = some entry)
    (inputs : entry.Enters path inherited place reader)
    (readable : system.read path.normalize = .ok text) :
    state.steps system (.upTo system (depth + 1)) number (raw :: rest) =
      (entry.after (Reader.readText system (.upTo system depth) path.normalize inherited text
        place reader)).steps system (.upTo system (depth + 1)) (number + 1) rest := by
  obtain ⟨target, rfl, rfl, rfl⟩ := inputs
  rw [← target] at readable ⊢
  have entered : entry.enteredBy (.upTo system (depth + 1)) = _ :=
    Reader.readFile_eq_readText system depth entry.target _ _ _ text readable
  rw [steps, state.step_of_entry system _ number raw entry enters, entered]
  rfl

end PassState

/-- A fatal error truncates its file: the pass leaves what it leaves over the lines in front of
the error, but for problems of the line of the error and a report of open conditionals. A pass
that includes the file goes on with its next line, among the conditionals it had. -/
theorem Reader.readText_of_fatal (system : FileSystem) (depth : Nat) (path : Path)
    (inherited : Option Dialect) (place : SectionState) (reader : Reader) (text : String)
    (error : FatalError) :
    let start := PassState.opening reader path.normalize inherited place
    let pass := fun text => start.steps system (.upTo system depth) 0 (Text.lines text)
    let read := fun text =>
      readText system (.upTo system depth) path.normalize inherited text place reader
    let cut := Text.firstLines error.line text
    (pass text).2 = some error →
      error.line < (Text.lines text).length ∧
      Text.lines cut = (Text.lines text).take error.line ∧
      (pass cut).2 = none ∧
      (pass text).1.pass = { (pass cut).1.pass with stack := (pass text).1.pass.stack } ∧
      Truncated error (read text) (read cut) ∧
      ∀ (outer : PassState) (number : Nat) (raw : String) (entry : Entry),
        outer.entryAt? system number raw = some entry →
        entry.Enters path inherited place reader → system.read path.normalize = .ok text →
        (∀ rest, outer.steps system (.upTo system (depth + 1)) number (raw :: rest) =
          (entry.after (read text)).steps system (.upTo system (depth + 1)) (number + 1) rest) ∧
        (entry.after (read text)).pass.stack = outer.pass.stack ∧
        (entry.after (read text)).reader.openFiles = outer.reader.openFiles := by
  intro start pass read cut stopped
  have counted : Text.lines cut = (Text.lines text).take error.line :=
    Text.lines_firstLines error.line text
  -- The lines in front of the error are those of the cut text, and they end in `last`.
  obtain ⟨index, last, number, inside, reached, noted⟩ :=
    start.steps_until_fatal 0 system (.upTo system depth) (Text.lines text) (pass text).1 error
      (Prod.ext rfl stopped)
  rw [Nat.zero_add] at number
  rw [← number, ← counted] at reached
  have taken : pass cut = (last, none) := reached
  have own := (Runs.of_steps system depth 0 start (Text.lines cut)).stays.2.2.2
  rw [reached] at own
  refine ⟨number ▸ inside, counted, congrArg Prod.snd taken, ?_, ?_, ?_⟩
  · rw [taken]
    exact noted.pass
  · have truncated := noted.truncated start.pass.file own
    rw [← stopped] at truncated
    simp only [read, readText_eq]
    rw [reached]
    exact truncated
  · -- The including pass knows of the file only what its pass returned.
    intro outer number raw entry enters inputs readable
    have keeps := PassState.Keeps.of_entry enters
    have closed : (read text).2.2.openFiles = outer.reader.openFiles := calc
      _ = reader.openFiles :=
        readText_openFiles system depth path.normalize inherited place reader text
      _ = entry.state.reader.openFiles := by rw [inputs.reader]
      _ = outer.reader.openFiles := keeps.openFiles
    exact ⟨fun rest => PassState.steps_of_entry depth rest enters inputs readable,
      PassState.after_stack enters _, closed⟩

/-! ### A chain that fails -/

/-- Options whose second branch divides by zero. -/
def optionsText : String :=
  "DEFINE A = 1\n!if FALSE\nDEFINE B = 2\n!elseif 1 / 0\nDEFINE C = 3\n!endif\n"

def optionsFiles : MemoryFiles :=
  .ofList [(⟨"/ws/P.dsc"⟩, "!if TRUE\n!include options.inc\n!endif\n"),
    (⟨"/ws/options.inc"⟩, optionsText)]

/-- The platform in front of its include. -/
def beforeOptions : PassState :=
  ((PassState.opening (.new { Configuration.initial with workspaceRoot := ⟨"/ws"⟩ }.context .empty)
    ⟨"/ws/P.dsc"⟩ none .initial).steps (.memory optionsFiles) .refuse 0 ["!if TRUE"]).1

def optionsEntry : Entry where
  target := ⟨"/ws/options.inc"⟩
  reference := "options.inc"
  state :=
    (beforeOptions.noteInclude (.memory optionsFiles) 1 "!include options.inc"
      "options.inc").addInclude ⟨"/ws/options.inc"⟩

def optionsError : FatalError :=
  ⟨3, .expression .divisionByZero⟩

/-- A pass over the options with another text. -/
def readOptions (text : String) : FileId × SectionState × Reader :=
  Reader.readText (.memory optionsFiles) (.upTo (.memory optionsFiles) 1)
    (Path.normalize ⟨"/ws/options.inc"⟩) (some .dsc) text .initial optionsEntry.state.reader

/-- The options stop at their second branch, and the platform goes on in its live branch. -/
theorem optionsText_truncated :
    ((PassState.opening optionsEntry.state.reader (Path.normalize ⟨"/ws/options.inc"⟩) (some .dsc)
      .initial).steps (.memory optionsFiles) (.upTo (.memory optionsFiles) 1) 0
      (Text.lines optionsText)).2 = some optionsError ∧
    beforeOptions.entryAt? (.memory optionsFiles) 1 "!include options.inc" = some optionsEntry ∧
    Truncated optionsError (readOptions optionsText)
      (readOptions (Text.firstLines optionsError.line optionsText)) ∧
    (optionsEntry.after (readOptions optionsText)).pass.stack = beforeOptions.pass.stack := by
  have ⟨stopped, enters, dialect, place⟩ : ((PassState.opening optionsEntry.state.reader
      (Path.normalize ⟨"/ws/options.inc"⟩) (some .dsc) .initial).steps (.memory optionsFiles)
      (.upTo (.memory optionsFiles) 1) 0 (Text.lines optionsText)).2 = some optionsError ∧
      beforeOptions.entryAt? (.memory optionsFiles) 1 "!include options.inc" = some optionsEntry ∧
      some optionsEntry.state.pass.dialect = some .dsc ∧ optionsEntry.state.place = .initial := by
    decide +kernel
  have inputs : optionsEntry.Enters ⟨"/ws/options.inc"⟩ (some .dsc) .initial
      optionsEntry.state.reader :=
    ⟨rfl, dialect, place, rfl⟩
  have found : optionsFiles.find? (Path.normalize ⟨"/ws/options.inc"⟩) = some optionsText := by
    decide +kernel
  have readable : FileSystem.read (.memory optionsFiles) (Path.normalize ⟨"/ws/options.inc"⟩) =
      .ok optionsText := by
    simp only [FileSystem.read, found]
  have truncates := Reader.readText_of_fatal (.memory optionsFiles) 1 ⟨"/ws/options.inc"⟩
    (some .dsc) .initial optionsEntry.state.reader optionsText optionsError
  dsimp only at truncates
  obtain ⟨_, _, _, _, truncated, included⟩ := truncates stopped
  have ⟨_, stack, _⟩ :=
    included beforeOptions 1 "!include options.inc" optionsEntry enters inputs readable
  exact ⟨stopped, enters, truncated, stack⟩

end FirmwareWorkspace
