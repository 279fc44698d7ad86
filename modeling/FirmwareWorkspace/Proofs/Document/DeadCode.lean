import FirmwareWorkspace.Configuration
import FirmwareWorkspace.Proofs.Document.Mirror

/-!
# Dead lines

A dead line that is no conditional directive is marked and does nothing else, whatever it
says. A line is in the list of dead lines only if it was marked when it was reached, so
two versions of a file that differ on such lines go the same way line by line.

The versions live in two file systems with the same paths and the same texts elsewhere.
That the file itself has another text makes no difference while it is read, since an open
file is not entered again.

Main result: `Reader.readFile_of_dead_lines`.
-/
namespace FirmwareWorkspace

/-- A line with code that neither opens, switches nor closes a conditional. -/
structure Line.IsPlain (raw : String) : Prop where
  coded : Line.code raw ≠ ""
  unconditional : ∀ directive, Directive.ofCode? (Line.code raw) = some directive →
    directive.isConditional = false

/-- Versions of a text that differ on lines of a list only, and there in plain ones. -/
structure DifferAt (dead : List Nat) (lines others : List String) : Prop where
  length : lines.length = others.length
  plain : ∀ line raw other, lines[line]? = some raw → others[line]? = some other → raw ≠ other →
    line ∈ dead ∧ Line.IsPlain raw ∧ Line.IsPlain other

namespace PassState

/-! ### Marks of dead lines -/

variable (state : PassState) (system : FileSystem) (enter : Enter) (line : Nat) (raw : String)

/-- A plain line in dead code is marked, and that is all. -/
theorem step_of_dead (plain : Line.IsPlain raw) (dead : state.pass.stack.isActive = false) :
    state.step system enter line raw = (state.markInactive line, none) := by
  unfold step
  rw [if_neg plain.coded]
  split
  next directive parsed =>
    have skipped := plain.unconditional directive parsed
    rw [directive_eq, followLive, dead, skipped]
    simp only [Bool.or_self, Bool.false_eq_true, if_false, markDead, dead]
    rfl
  · rw [dead]
    rfl

theorem survivesFollowing_inactive :
    SurvivesFollowing fun later => later.pass.inactive = state.pass.inactive :=
  ⟨⟨fun _ _ _ _ same => same, fun _ _ _ same => same, fun _ _ _ same => same,
    fun _ _ _ same => same⟩, fun _ _ same => same, fun _ _ same => same⟩

theorem resume_pass (entry : Entry) (result : Except ReadFailure (FileId × SectionState × Reader)) :
    (entry.resume line result).pass = entry.state.pass := by
  unfold Entry.resume
  split <;> rfl

/-- A line marks itself or nothing, and in live code nothing. -/
theorem step_inactive :
    (state.step system enter line raw).1.pass.inactive = state.pass.inactive ∨
      state.pass.stack.isActive = false ∧
        (state.step system enter line raw).1.pass.inactive = state.pass.inactive ++ [line] := by
  have survives := survivesFollowing_inactive state
  cases enters : state.entryAt? system line raw with
  | some entry =>
    rw [step_of_entry state system enter line raw entry enters]
    dsimp only
    rw [resume_pass]
    exact .inl (survives.entry enters rfl)
  | none =>
    rw [step_of_no_entry state system enter line raw enters]
    unfold step
    split
    · exact .inl rfl
    · split
      next directive _ =>
        -- A directive leaves the marked lines alone; only the mark itself adds one.
        have followed : (state.followLive system .refuse line raw directive).1.pass.inactive =
            state.pass.inactive := by
          unfold followLive
          split
          · exact survives.follow state system line raw directive rfl
          · rfl
        rw [directive_eq, markDead]
        split
        next dead =>
          simp only [Bool.and_eq_true, Bool.not_eq_true'] at dead
          exact .inr ⟨dead.1.2, congrArg (· ++ [line]) followed⟩
        · exact .inl followed
      · split
        · exact .inl (survives.declareLine state system line raw rfl)
        next dead => exact .inr ⟨Bool.eq_false_iff.mpr dead, rfl⟩

theorem mem_inactive_step (number : Nat)
    (marked : number ∈ (state.step system enter line raw).1.pass.inactive) :
    number ∈ state.pass.inactive ∨ number = line := by
  rcases state.step_inactive system enter line raw with same | ⟨_, added⟩
  · exact .inl (same ▸ marked)
  · rw [added] at marked
    exact (List.mem_append.mp marked).imp_right List.mem_singleton.mp

/-- The lines behind a line mark others than itself. -/
theorem mem_inactive_steps (rest : List String) (number : Nat)
    (marked : number ∈ (state.steps system enter line (raw :: rest)).1.pass.inactive) :
    number ∈ (state.step system enter line raw).1.pass.inactive ∨ line < number := by
  induction rest generalizing state line raw with
  | nil =>
    rw [steps] at marked
    cases stepped : state.step system enter line raw with
    | mk next fatal =>
    rw [stepped] at marked
    cases fatal with
    | none | some => exact .inl marked
  | cons second rest ih =>
    rw [steps] at marked
    cases stepped : state.step system enter line raw with
    | mk next fatal =>
    rw [stepped] at marked
    cases fatal with
    | none =>
      dsimp only at marked
      rcases ih next (line + 1) second marked with here | later
      · rcases next.mem_inactive_step system enter (line + 1) second number here with old | rfl
        · exact .inl old
        · exact .inr (Nat.lt_succ_self line)
      · exact .inr (Nat.lt_of_succ_lt later)
    | some error => exact .inl marked

/-- A line that the pass marks while taking it in was dead. The mark is not an old one, and the
lines behind mark others. -/
theorem dead_of_marked (rest : List String) (fresh : ∀ number ∈ state.pass.inactive, number < line)
    (marked : line ∈ (state.steps system enter line (raw :: rest)).1.pass.inactive) :
    state.pass.stack.isActive = false := by
  have reached := state.mem_inactive_steps system enter line raw rest line marked
  have own := reached.resolve_right (Nat.lt_irrefl line)
  rcases state.step_inactive system enter line raw with unmarked | ⟨dead, _⟩
  · exact absurd (fresh line (unmarked ▸ own)) (Nat.lt_irrefl line)
  · exact dead

/-- Versions that differ on lines that the first one marks are taken in alike. -/
theorem steps_of_dead (lines others : List String)
    (fresh : ∀ number ∈ state.pass.inactive, number < line)
    (length : lines.length = others.length)
    (plain : ∀ index raw other, lines[index]? = some raw → others[index]? = some other →
      raw ≠ other → line + index ∈ (state.steps system enter line lines).1.pass.inactive ∧
        Line.IsPlain raw ∧ Line.IsPlain other) :
    state.steps system enter line others = state.steps system enter line lines := by
  induction lines generalizing state line others with
  | nil =>
    cases others with
    | nil => rfl
    | cons => cases length
  | cons raw rest ih =>
    cases others with
    | nil => cases length
    | cons other others =>
    -- Either the lines are the same, or they are dead and plain.
    have same : state.step system enter line other = state.step system enter line raw := by
      by_cases equal : raw = other
      · rw [equal]
      · obtain ⟨marked, ours, theirs⟩ := plain 0 raw other rfl rfl equal
        have dead := state.dead_of_marked system enter line raw rest fresh marked
        rw [step_of_dead state system enter line raw ours dead,
          step_of_dead state system enter line other theirs dead]
    rw [steps, steps, same]
    cases stepped : state.step system enter line raw with
    | mk next fatal =>
    cases fatal with
    | some error => rfl
    | none =>
      have onward : state.steps system enter line (raw :: rest) =
          next.steps system enter (line + 1) rest := by
        rw [steps, stepped]
      refine ih next (line + 1) others (fun number marked => ?_) (Nat.succ.inj length)
        fun index first second ours theirs differ => ?_
      · have reached : number ∈ (state.step system enter line raw).1.pass.inactive :=
          stepped ▸ marked
        rcases state.mem_inactive_step system enter line raw number reached with old | rfl
        · exact Nat.lt_succ_of_lt (fresh number old)
        · exact Nat.lt_succ_self number
      · have later := plain (index + 1) first second ours theirs differ
        rw [onward, ← Nat.add_assoc, Nat.add_right_comm] at later
        exact later

end PassState

/-! ### Two file systems -/

/-- File systems that differ in the text of one file only. -/
structure FileSystem.SameBut (path : Path) (left right : FileSystem) : Prop extends
    left.SamePaths right where
  read : ∀ other : Path, other.normalize ≠ path.normalize →
    left.read other.normalize = right.read other.normalize

theorem MemoryFiles.sameBut_withText (memory : MemoryFiles) (path : Path) (text : String) :
    FileSystem.SameBut path (.memory memory) (.memory (memory.withText path text)) where
  toSamePaths := memory.samePaths_withText path text
  read other different := by
    refine (memory.read_withText path text _ ?_).symm
    rwa [Path.normalize_normalize]

namespace PassState

variable {left right : FileSystem} (same : left.SamePaths right) (state : PassState) (line : Nat)

include same

theorem resolvePath_congr (what path : String) (global : Bool) :
    state.resolvePath left line what path global =
      state.resolvePath right line what path global := by
  unfold resolvePath
  rw [Resolver.lookup_congr _ left right same path _ _ rfl global]

theorem declare_congr (raw text : String) (kind : LineKind) :
    state.declare left line raw text kind = state.declare right line raw text kind := by
  have declared (symbol : Symbol) (what : String) (global : Bool) :
      state.declarePath left line symbol what global =
        state.declarePath right line symbol what global := by
    unfold declarePath
    rw [resolvePath_congr same]
  have entered (path : String) (opensBlock : Bool) :
      state.declareComponent left line raw path opensBlock =
        state.declareComponent right line raw path opensBlock := by
    unfold declareComponent
    rw [resolvePath_congr same]
  have headed (name header : String) :
      state.declareHeader left line raw name header =
        state.declareHeader right line raw name header := by
    unfold declareHeader Resolver.resolveLocal
    rw [Resolver.lookup_congr _ left right same header _ _ rfl false]
  cases kind with
  | libraryClass | source | package | includeDirectory => exact declared _ _ _
  | component path opensBlock => exact entered path opensBlock
  | libraryClassDeclaration name header => exact headed name header
  | _ => rfl

theorem noteInclude_congr (raw target : String) :
    state.noteInclude left line raw target = state.noteInclude right line raw target := by
  unfold noteInclude Resolver.resolve
  dsimp only
  rw [Resolver.lookup_congr _ left right same _ _ _ rfl true]

theorem includeFile_congr (enter : Enter) (raw target : String) :
    state.includeFile left enter line raw target =
      state.includeFile right enter line raw target := by
  unfold includeFile Resolver.resolve
  dsimp only
  rw [Resolver.lookup_congr _ left right same _ _ _ rfl true]

theorem step_congr (enter : Enter) (raw : String) :
    state.step left enter line raw = state.step right enter line raw := by
  have followed (directive : Directive) : state.follow left enter line raw directive =
      state.follow right enter line raw directive := by
    cases directive with
    | includeFile target => exact congrArg (·, none) (includeFile_congr same state line enter raw _)
    | _ => rfl
  have declared : state.declareLine left line raw = state.declareLine right line raw := by
    unfold declareLine
    simp only [declare_congr same]
  simp only [step, directive, followed, declared]

theorem entryAt_congr (raw : String) :
    state.entryAt? left line raw = state.entryAt? right line raw := by
  unfold entryAt? includeEntryAt? Resolver.resolve
  simp only [Resolver.lookup_congr _ left right same _ _ _ rfl true, noteInclude_congr same]

end PassState

/-- The text of an open file does not matter for what is read meanwhile. -/
theorem Runs.congr {left right : FileSystem} {path : Path} (same : left.SameBut path right)
    {depth line : Nat} {state : PassState} {lines : List String} {events : List ReadEvent}
    {outcome : Step} (run : Runs left depth state line lines events outcome)
    (reading : path.normalize ∈ state.reader.openFiles) :
    Runs right depth state line lines events outcome := by
  -- A file that is entered is not open, so it is read alike on both sides.
  have readAlike (state : PassState) (line : Nat) (raw : String) (entry : Entry)
      (enters : state.entryAt? left line raw = some entry)
      (reading : path.normalize ∈ state.reader.openFiles) :
      left.read entry.target.normalize = right.read entry.target.normalize := by
    obtain ⟨normal, fresh⟩ := state.entry_target line raw entry enters
    refine same.read _ fun equal => fresh ?_
    rw [← normal, equal]
    exact reading
  induction run with
  | done => exact .done
  | stop stays stopped =>
    rw [PassState.entryAt_congr same.toSamePaths] at stays
    rw [PassState.step_congr same.toSamePaths] at stopped
    exact .stop stays stopped
  | advance stays stepped _ ih =>
    have keeps := PassState.Keeps.of_step stepped
    rw [PassState.entryAt_congr same.toSamePaths] at stays
    rw [PassState.step_congr same.toSamePaths] at stepped
    exact .advance stays stepped (ih (keeps.openFiles ▸ reading))
  | @shut _ state line raw _ entry _ _ enters blocked _ ih =>
    have keeps := PassState.Keeps.of_entry enters
    rw [readAlike state line raw entry enters reading] at blocked
    rw [PassState.entryAt_congr same.toSamePaths] at enters
    exact .shut enters blocked (ih (keeps.openFiles ▸ reading))
  | @enter _ state last line raw _ _ entry _ _ _ _ enters readable inside _ innerIH ih =>
    have keeps := PassState.Keeps.of_entry enters
    have stays : last.reader.openFiles = entry.target.normalize :: entry.state.reader.openFiles :=
      inside.stays.1
    rw [readAlike state line raw entry enters reading] at readable
    rw [PassState.entryAt_congr same.toSamePaths] at enters
    rw [← keeps.openFiles] at reading
    refine .enter enters readable (innerIH (.tail _ reading)) (ih ?_)
    rw [Reader.finish_openFiles, stays]
    exact reading

/-- Two versions of a file that differ in dead plain lines only are read alike: their passes
end in the same state, and so does reading them. -/
theorem Reader.readFile_of_dead_lines (left right : FileSystem) (path : Path)
    (same : left.SameBut path right) (depth : Nat) (inherited : Option Dialect)
    (place : SectionState) (reader : Reader) (text other : String)
    (ours : left.read path.normalize = .ok text) (theirs : right.read path.normalize = .ok other) :
    let start := PassState.opening reader path.normalize inherited place
    let first := start.steps left (.upTo left depth) 0 (Text.lines text)
    let second := start.steps right (.upTo right depth) 0 (Text.lines other)
    DifferAt first.1.pass.inactive (Text.lines text) (Text.lines other) →
      first = second ∧
        readFile left (depth + 1) path inherited place reader =
          readFile right (depth + 1) path inherited place reader := by
  intro start first second differ
  have reading : path.normalize ∈ start.reader.openFiles := .head _
  -- The second version goes the same way in the first file system.
  have run := Runs.of_steps left depth 0 start (Text.lines other)
  have moved := (run.congr same reading).eq_steps.2
  have alike := start.steps_of_dead left (.upTo left depth) 0 (Text.lines text) (Text.lines other)
    (fun _ marked => nomatch marked) differ.length fun index raw new ours theirs distinct => by
      rw [Nat.zero_add]
      exact differ.plain index raw new ours theirs distinct
  have equal : first = second := alike.symm.trans moved
  refine ⟨equal, ?_⟩
  rw [readFile_succ left depth path inherited place reader text ours,
    readFile_succ right depth path inherited place reader other theirs]
  exact congrArg (fun outcome : Step =>
    Except.ok (start.pass.file, outcome.1.place, finish outcome.1 outcome.2)) equal

/-! ### A disabled line -/

def definingText : String :=
  "!if FALSE\nDEFINE A = 1\n!endif\nDEFINE B = 2\n"

/-- A failing directive in the place of the dead definition. -/
def failingText : String :=
  "!if FALSE\n!error stop\n!endif\nDEFINE B = 2\n"

def platformFiles : MemoryFiles :=
  .ofList [(⟨"/ws/P.dsc"⟩, definingText)]

def platformReader : Reader :=
  .new { Configuration.initial with workspaceRoot := ⟨"/ws"⟩ }.context .empty

/-- The dead directive fails as little as the dead definition defines. -/
theorem platformFiles_alike :
    Reader.readFile (.memory platformFiles) 2 ⟨"/ws/P.dsc"⟩ none .initial platformReader =
      Reader.readFile (.memory (platformFiles.withText ⟨"/ws/P.dsc"⟩ failingText)) 2 ⟨"/ws/P.dsc"⟩
        none .initial platformReader := by
  have lines : Text.lines definingText =
      ["!if FALSE", "DEFINE A = 1", "!endif", "DEFINE B = 2"] := by decide +kernel
  have others : Text.lines failingText =
      ["!if FALSE", "!error stop", "!endif", "DEFINE B = 2"] := by decide +kernel
  have found : platformFiles.find? (Path.normalize ⟨"/ws/P.dsc"⟩) = some definingText := by
    decide +kernel
  have foundToo : (platformFiles.withText ⟨"/ws/P.dsc"⟩ failingText).find?
      (Path.normalize ⟨"/ws/P.dsc"⟩) = some failingText := by decide +kernel
  have dead : 1 ∈ (PassState.steps (.opening platformReader (Path.normalize ⟨"/ws/P.dsc"⟩) none
      .initial) (.memory platformFiles) (.upTo (.memory platformFiles) 1) 0
      (Text.lines definingText)).1.pass.inactive := by decide +kernel
  have defining : Line.IsPlain "DEFINE A = 1" :=
    ⟨by decide +kernel, fun directive parsed => by
      have none : Directive.ofCode? (Line.code "DEFINE A = 1") = none := by decide +kernel
      cases none.symm.trans parsed⟩
  have failing : Line.IsPlain "!error stop" :=
    ⟨by decide +kernel, fun directive parsed => by
      have fail : Directive.ofCode? (Line.code "!error stop") = some (.fail "stop") := by
        decide +kernel
      cases fail.symm.trans parsed
      rfl⟩
  refine (Reader.readFile_of_dead_lines _ _ _ (platformFiles.sameBut_withText _ _) 1 none .initial
    platformReader definingText failingText (by simp only [FileSystem.read, found])
    (by simp only [FileSystem.read, foundToo]) ⟨?_, ?_⟩).2
  · rw [lines, others]
    rfl
  · intro line raw other ours theirs distinct
    rw [lines] at ours
    rw [others] at theirs
    -- The versions differ in their second line.
    rcases line with _ | _ | _ | _ | line
    · cases ours
      cases theirs
      exact absurd rfl distinct
    · cases ours
      cases theirs
      exact ⟨dead, defining, failing⟩
    · cases ours
      cases theirs
      exact absurd rfl distinct
    · cases ours
      cases theirs
      exact absurd rfl distinct
    · cases ours

end FirmwareWorkspace
