import FirmwareWorkspace.Proofs.Conditional.Bracket
import FirmwareWorkspace.Proofs.Document.Balance
import FirmwareWorkspace.Proofs.Document.DeadCode
import FirmwareWorkspace.Proofs.Document.Earlier

/-!
# Conditionals that open in dead code

A line that opens a conditional in dead code has its arguments looked at in one respect only: a
test for a macro that does not name exactly one is reported, although its outcome is not asked
for. So two versions of such a line are taken in alike except for these reports, and everything
behind them goes the same way.

Main result: `Reader.readFile_of_dead_opener`.
-/
namespace FirmwareWorkspace

/-- A line that tests for a macro without naming exactly one. -/
def Line.IsMalformedTest (raw : String) : Prop :=
  ∃ expected arguments,
    Directive.ofCode? (Line.code raw) = some (.openIfDefined expected arguments) ∧
      Directive.soleName? arguments = none

/-- What a line reports that opens a conditional in dead code. -/
def Line.complaints (file : FileId) (line : Nat) (raw : String) : List Diagnostic :=
  match Directive.ofCode? (Line.code raw) with
  | some (.openIfDefined expected arguments) =>
    match Directive.soleName? arguments with
    | some _ => []
    | none =>
      [.plain ⟨file, line⟩ (.malformedConditional
        ("`!" ++ (if expected then "ifdef" else "ifndef") ++ "` takes exactly one macro name"))]
  | _ => []

/-- Readers that agree in all but the problems they have reported; these agree too, apart from
one place with different ones. -/
def Reader.DifferBy (ours theirs : List Diagnostic) (left right : Reader) : Prop :=
  ∃ before after, left.diagnostics = before ++ ours ++ after ∧
    right = { left with diagnostics := before ++ theirs ++ after }

theorem Reader.DifferBy.eq_iff {ours theirs : List Diagnostic} {left right : Reader}
    (differ : DifferBy ours theirs left right) : left = right ↔ ours = theirs := by
  obtain ⟨before, after, reported, rfl⟩ := differ
  constructor
  · intro same
    have told := congrArg (·.diagnostics) same
    rw [reported] at told
    exact List.append_cancel_left (List.append_cancel_right told)
  · rintro rfl
    rw [← reported]

namespace Line

/-- A line that opens a conditional evaluates a condition or tests for a macro. -/
theorem exists_opener {raw : String} (opens : bracket? raw = some .opens) :
    (∃ condition, Directive.ofCode? (code raw) = some (.openIf condition) ∧
      keyword? raw = some "if") ∨
    ∃ expected arguments, Directive.ofCode? (code raw) = some (.openIfDefined expected arguments) ∧
      keyword? raw = some (if expected then "ifdef" else "ifndef") := by
  cases parsed : Directive.ofCode? (code raw) with
  | none =>
    rw [bracket_of_no_directive raw parsed] at opens
    cases opens
  | some directive =>
    obtain ⟨keyword, spelled, belongs⟩ := keyword_of_directive raw directive parsed
    rw [bracket_of_keyword raw keyword spelled] at opens
    cases directive with
    | openIf condition => exact .inl ⟨condition, rfl, belongs ▸ spelled⟩
    | openIfDefined expected arguments =>
      refine .inr ⟨expected, arguments, rfl, ?_⟩
      cases expected with
      | true => exact belongs ▸ spelled
      | false => exact belongs ▸ spelled
    | elseIf | elseBranch | endIf =>
      rw [Directive.SpelledBy] at belongs
      subst belongs
      cases opens
    | includeFile | fail | inert =>
      rw [Directive.SpelledBy] at belongs
      rw [belongs] at opens
      cases opens

theorem complaints_of_malformed (file : FileId) (line : Nat) {raw : String} {keyword : String}
    (spelled : keyword? raw = some keyword) (malformed : IsMalformedTest raw) :
    complaints file line raw = [.plain ⟨file, line⟩ (.malformedConditional
      ("`!" ++ keyword ++ "` takes exactly one macro name"))] := by
  obtain ⟨expected, arguments, parsed, several⟩ := malformed
  obtain ⟨own, spelledToo, belongs⟩ := keyword_of_directive raw _ parsed
  cases Option.some.inj (spelled.symm.trans spelledToo)
  simp only [complaints, parsed, several]
  cases expected with
  | true => rw [show keyword = "ifdef" from belongs]; rfl
  | false => rw [show keyword = "ifndef" from belongs]; rfl

theorem complaints_of_not_malformed (file : FileId) (line : Nat) {raw : String}
    (sound : ¬ IsMalformedTest raw) : complaints file line raw = [] := by
  unfold complaints
  split
  next expected arguments parsed =>
    cases named : Directive.soleName? arguments with
    | some _ => rfl
    | none => exact absurd ⟨expected, arguments, parsed, named⟩ sound
  · rfl

/-- With the same keyword, lines differ in what they report only if one of them is malformed. -/
theorem complaints_eq_iff (file : FileId) (line : Nat) {raw other : String}
    (opens : bracket? raw = some .opens) (same : keyword? other = keyword? raw) :
    complaints file line raw = complaints file line other ↔
      (IsMalformedTest raw ↔ IsMalformedTest other) := by
  obtain ⟨keyword, spelled⟩ : ∃ keyword, keyword? raw = some keyword := by
    cases spelled : keyword? raw with
    | none =>
      rw [bracket?, spelled] at opens
      cases opens
    | some keyword => exact ⟨keyword, rfl⟩
  -- The complaint spells the keyword, which both lines have in common.
  by_cases ours : IsMalformedTest raw <;> by_cases theirs : IsMalformedTest other
  · rw [complaints_of_malformed file line spelled ours,
      complaints_of_malformed file line (same.trans spelled) theirs]
    exact iff_of_true rfl (iff_of_true ours theirs)
  · rw [complaints_of_malformed file line spelled ours,
      complaints_of_not_malformed file line theirs]
    exact iff_of_false (List.cons_ne_nil _ _) fun both => theirs (both.mp ours)
  · rw [complaints_of_not_malformed file line ours,
      complaints_of_malformed file line (same.trans spelled) theirs]
    exact iff_of_false (List.cons_ne_nil _ _).symm fun both => ours (both.mpr theirs)
  · rw [complaints_of_not_malformed file line ours, complaints_of_not_malformed file line theirs]
    exact iff_of_true rfl (iff_of_false ours theirs)

end Line

/-- A conditional that is opened in dead code is dead and settled, whatever its value. -/
theorem ConditionalStack.push_of_dead {stack : ConditionalStack} (dead : stack.isActive = false)
    (line : Nat) (value : Bool) : stack.push line value = stack.push line false := by
  simp only [push, dead, Bool.false_and, Bool.not_false, Bool.true_or]

theorem ConditionalStack.isActive_push_of_dead {stack : ConditionalStack}
    (dead : stack.isActive = false) (line : Nat) (value : Bool) :
    (stack.push line value).isActive = false := by
  rw [isActive, push, List.all_cons, dead, Bool.false_and, Bool.false_and]

namespace PassState

/-- Open a conditional in dead code and mark its line. -/
def openDead (state : PassState) (line : Nat) : PassState :=
  (state.setStack (state.pass.stack.push line false)).markInactive line

def reportAll (state : PassState) (problems : List Diagnostic) : PassState :=
  { state with reader := { state.reader with diagnostics := state.reader.diagnostics ++ problems } }

/-- The pass as if nothing had been reported so far. -/
def silenced (state : PassState) : PassState :=
  { state with reader := { state.reader with diagnostics := [] } }

theorem reportAll_eq (state : PassState) (problems : List Diagnostic) :
    state.reportAll problems =
      state.silenced.withEarlier (state.reader.diagnostics ++ problems) := by
  simp only [reportAll, silenced, withEarlier, Reader.withEarlier, List.append_nil]

/-- Of its arguments, a line that opens a conditional in dead code tells in its complaints only. -/
theorem step_of_dead_opener (state : PassState) (system : FileSystem) (enter : Enter) (line : Nat)
    {raw : String} (opens : Line.bracket? raw = some .opens)
    (dead : state.pass.stack.isActive = false) :
    state.step system enter line raw =
      ((state.openDead line).reportAll (Line.complaints state.pass.file line raw), none) := by
  have coded : Line.code raw ≠ "" := by
    intro blank
    rw [Line.bracket_of_blank raw blank] at opens
    cases opens
  have closed := ConditionalStack.isActive_push_of_dead dead line false
  rw [step, if_neg coded]
  rcases Line.exists_opener opens with ⟨condition, parsed, -⟩ | ⟨expected, arguments, parsed, -⟩
  · -- A condition is not evaluated in dead code.
    have opened : state.openIf line condition =
        (state.setStack (state.pass.stack.push line false), none) :=
      if_neg (ne_true_of_eq_false dead)
    simp only [parsed, directive_eq, followLive, Directive.isConditional, Bool.or_true, if_true,
      follow, opened, Line.complaints]
    simp only [markDead, dead, setStack, closed, Option.isNone_none, Bool.not_false, Bool.and_self,
      if_true, openDead, markInactive, reportAll, List.append_nil]
  · -- A test is looked at for its single name, and its outcome makes no difference.
    have opened : state.openIfDefined line expected arguments =
        ((state.setStack (state.pass.stack.push line false)).reportAll
          (Line.complaints state.pass.file line raw), none) := by
      simp only [openIfDefined, Line.complaints, parsed]
      cases Directive.soleName? arguments with
      | some name =>
        simp only [ConditionalStack.push_of_dead dead line _, reportAll, List.append_nil]
      | none => rfl
    simp only [parsed, directive_eq, followLive, Directive.isConditional, Bool.or_true, if_true,
      follow, opened]
    simp only [markDead, dead, reportAll, setStack, closed, Option.isNone_none, Bool.not_false,
      Bool.and_self, if_true, openDead, markInactive]

/-- The lines behind go the same way, whatever the line has reported. -/
theorem steps_of_dead_opener {state : PassState} {system : FileSystem} {depth line : Nat}
    {raw : String} {rest : List String} {events : List ReadEvent} {outcome : Step}
    (opens : Line.bracket? raw = some .opens) (dead : state.pass.stack.isActive = false)
    (run : Runs system depth (state.openDead line).silenced (line + 1) rest events outcome) :
    state.steps system (.upTo system depth) line (raw :: rest) =
      outcome.withEarlier
        (state.reader.diagnostics ++ Line.complaints state.pass.file line raw) := by
  have behind := run.withEarlier
    (state.reader.diagnostics ++ Line.complaints state.pass.file line raw)
  rw [steps, step_of_dead_opener state system _ line opens dead, reportAll_eq]
  exact behind.eq_steps.2.symm

/-- In two file systems the versions go the same way, each behind its own complaints. -/
theorem exists_outcome_of_dead_opener {left right : FileSystem} {path : Path}
    (same : left.SameBut path right) {start reached : PassState} (depth : Nat)
    (back : List String) {front : List String} {raw other : String}
    (opens : Line.bracket? raw = some .opens) (opensToo : Line.bracket? other = some .opens)
    (reading : path.normalize ∈ start.reader.openFiles)
    (ahead : start.steps left (.upTo left depth) 0 front = (reached, none))
    (dead : reached.pass.stack.isActive = false) :
    ∃ outcome : Step,
      start.steps left (.upTo left depth) 0 (front ++ raw :: back) =
        outcome.withEarlier
          (reached.reader.diagnostics ++ Line.complaints start.pass.file front.length raw) ∧
      start.steps right (.upTo right depth) 0 (front ++ other :: back) =
        outcome.withEarlier
          (reached.reader.diagnostics ++ Line.complaints start.pass.file front.length other) := by
  -- The lines in front are the same, so both file systems lead to the same place.
  have lead := Runs.of_steps left depth 0 start front
  have aheadToo := (lead.congr same reading).eq_steps.2
  have stays := lead.stays
  rw [ahead] at aheadToo stays
  obtain ⟨openFiles, -, -, file⟩ := stays
  -- What is behind the line does not depend on what the line has reported.
  obtain ⟨events, outcome, behind⟩ : ∃ events outcome, Runs left depth
      (reached.openDead (0 + front.length)).silenced (0 + front.length + 1) back events outcome :=
    ⟨_, _, Runs.of_steps left depth _ _ back⟩
  have kept : path.normalize ∈ (reached.openDead (0 + front.length)).silenced.reader.openFiles :=
    openFiles ▸ reading
  refine ⟨outcome, ?_, ?_⟩
  · rw [start.steps_append reached left _ 0 front (raw :: back) ahead,
      steps_of_dead_opener opens dead behind, file, Nat.zero_add]
  · rw [start.steps_append reached right _ 0 front (other :: back) aheadToo.symm,
      steps_of_dead_opener opensToo dead (behind.congr same kept), file, Nat.zero_add]

end PassState

theorem Reader.differBy_withEarlier (reader : Reader) (before ours theirs : List Diagnostic) :
    DifferBy ours theirs (reader.withEarlier (before ++ ours))
      (reader.withEarlier (before ++ theirs)) :=
  ⟨before, reader.diagnostics, rfl, rfl⟩

/-- Two versions of a file that differ in the arguments of a line that opens a conditional in dead
code are read alike, except that each reports its own complaints about that line. So they are read
the same just if both are malformed tests or neither is. -/
theorem Reader.readFile_of_dead_opener (left right : FileSystem) (path : Path)
    (same : left.SameBut path right) (depth : Nat) (inherited : Option Dialect)
    (place : SectionState) (reader : Reader) (text edited : String)
    (ours : left.read path.normalize = .ok text) (theirs : right.read path.normalize = .ok edited)
    (front back : List String) (raw other : String) (lines : Text.lines text = front ++ raw :: back)
    (others : Text.lines edited = front ++ other :: back)
    (opens : Line.bracket? raw = some .opens) (keyword : Line.keyword? other = Line.keyword? raw) :
    let start := PassState.opening reader path.normalize inherited place
    let reached := start.steps left (.upTo left depth) 0 front
    let first := start.steps left (.upTo left depth) 0 (Text.lines text)
    let second := start.steps right (.upTo right depth) 0 (Text.lines edited)
    let told := Line.complaints start.pass.file front.length
    reached.2 = none → reached.1.pass.stack.isActive = false →
      (second.1.place = first.1.place ∧ second.1.pass = first.1.pass ∧ second.2 = first.2 ∧
        DifferBy (told raw) (told other) first.1.reader second.1.reader) ∧
      (∃ one two,
        readFile left (depth + 1) path inherited place reader =
          .ok (start.pass.file, first.1.place, one) ∧
        readFile right (depth + 1) path inherited place reader =
          .ok (start.pass.file, first.1.place, two) ∧
        DifferBy (told raw) (told other) one two) ∧
      (first = second ↔ (Line.IsMalformedTest raw ↔ Line.IsMalformedTest other)) := by
  intro start reached first second told unstopped dead
  have opensToo : Line.bracket? other = some .opens := by
    rw [Line.bracket?, keyword]
    exact opens
  have reading : path.normalize ∈ start.reader.openFiles := .head _
  -- Both passes go through one outcome, with the complaints of their own opener put in front.
  obtain ⟨outcome, one, two⟩ := PassState.exists_outcome_of_dead_opener same depth
    back opens opensToo reading (Prod.ext rfl unstopped) dead
  rw [← lines] at one
  rw [← others] at two
  have read : readFile left (depth + 1) path inherited place reader =
      .ok (start.pass.file, first.1.place, finish first.1 first.2) :=
    readFile_succ left depth path inherited place reader text ours
  have readToo : readFile right (depth + 1) path inherited place reader =
      .ok (start.pass.file, second.1.place, finish second.1 second.2) :=
    readFile_succ right depth path inherited place reader edited theirs
  have finished (notes : List Diagnostic) : finish (outcome.withEarlier notes).1
      (outcome.withEarlier notes).2 = (finish outcome.1 outcome.2).withEarlier notes :=
    finish_withEarlier notes outcome.1 outcome.2
  -- The ends of the passes keep these notes in front.
  change first = _ at one
  change second = _ at two
  rw [one, finished, Step.place_withEarlier] at read
  rw [two, finished, Step.place_withEarlier] at readToo
  rw [one, two, Step.withEarlier_inj]
  simp only [Step.place_withEarlier, Step.pass_withEarlier, Step.fatal_withEarlier, true_and]
  have differ := outcome.1.reader.differBy_withEarlier reached.1.reader.diagnostics (told raw)
    (told other)
  refine ⟨differ, ⟨_, _, read, readToo, ?_⟩, ?_⟩
  · exact differBy_withEarlier _ _ _ _
  · rw [differ.eq_iff]
    exact Line.complaints_eq_iff start.pass.file front.length opens keyword

/-! ### A dead test with two names -/

def twoNamesText : String :=
  "!if FALSE\n!ifdef A B\n!endif\n!endif\n"

def oneNameText : String :=
  "!if FALSE\n!ifdef A\n!endif\n!endif\n"

def testingFiles : MemoryFiles :=
  .ofList [(⟨"/ws/P.dsc"⟩, twoNamesText)]

/-- The dead test is reported for its second name; without it nothing else changes. -/
theorem testingFiles_differ :
    ∃ place one two,
      Reader.readFile (.memory testingFiles) 2 ⟨"/ws/P.dsc"⟩ none .initial platformReader =
        .ok (⟨0⟩, place, one) ∧
      Reader.readFile (.memory (testingFiles.withText ⟨"/ws/P.dsc"⟩ oneNameText)) 2 ⟨"/ws/P.dsc"⟩
        none .initial platformReader = .ok (⟨0⟩, place, two) ∧
      Reader.DifferBy
        [.plain ⟨⟨0⟩, 1⟩ (.malformedConditional "`!ifdef` takes exactly one macro name")] [] one two
      := by
  have lines : Text.lines twoNamesText =
      ["!if FALSE"] ++ "!ifdef A B" :: ["!endif", "!endif"] := by decide +kernel
  have others : Text.lines oneNameText =
      ["!if FALSE"] ++ "!ifdef A" :: ["!endif", "!endif"] := by decide +kernel
  have found : testingFiles.find? (Path.normalize ⟨"/ws/P.dsc"⟩) = some twoNamesText := by
    decide +kernel
  have foundToo : (testingFiles.withText ⟨"/ws/P.dsc"⟩ oneNameText).find?
      (Path.normalize ⟨"/ws/P.dsc"⟩) = some oneNameText := by decide +kernel
  have ⟨file, reached, dead⟩ :
      (PassState.opening platformReader (Path.normalize ⟨"/ws/P.dsc"⟩) none .initial).pass.file =
        ⟨0⟩ ∧
      (PassState.steps (.opening platformReader (Path.normalize ⟨"/ws/P.dsc"⟩) none .initial)
        (.memory testingFiles) (.upTo (.memory testingFiles) 1) 0 ["!if FALSE"]).2 = none ∧
      (PassState.steps (.opening platformReader (Path.normalize ⟨"/ws/P.dsc"⟩) none .initial)
        (.memory testingFiles) (.upTo (.memory testingFiles) 1) 0
        ["!if FALSE"]).1.pass.stack.isActive = false := by decide +kernel
  have ⟨_, ⟨one, two, read, readToo, differ⟩, _⟩ := Reader.readFile_of_dead_opener _ _ _
    (testingFiles.sameBut_withText _ oneNameText) 1 none .initial platformReader twoNamesText
    oneNameText (by simp only [FileSystem.read, found]) (by simp only [FileSystem.read, foundToo])
    ["!if FALSE"] ["!endif", "!endif"] "!ifdef A B" "!ifdef A" lines others (by decide +kernel)
    (by decide +kernel) reached dead
  have ours : Line.complaints ⟨0⟩ 1 "!ifdef A B" = [.plain ⟨⟨0⟩, 1⟩
      (.malformedConditional "`!ifdef` takes exactly one macro name")] := by decide +kernel
  have theirs : Line.complaints ⟨0⟩ 1 "!ifdef A" = [] := by decide +kernel
  rw [file] at read readToo differ
  rw [List.length_singleton, ours, theirs] at differ
  exact ⟨_, one, two, read, readToo, differ⟩

end FirmwareWorkspace
