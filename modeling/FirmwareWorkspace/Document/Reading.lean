import FirmwareWorkspace.Document.Branching
import FirmwareWorkspace.Document.Declaring

/-!
# Reading files

A pass takes the lines of a file in order and stops at the first fatal error. An
include enters the included file where it stands, unless that file is being read
already. Open files are therefore distinct files of the file system, and one
level more than their number is deep enough for every nesting.
-/
namespace FirmwareWorkspace

/-- How an included file is entered: from a dialect to inherit, the section and the
reader, to the section and the reader after it. -/
abbrev Enter :=
  Path → Dialect → SectionState → Reader → Except ReadFailure (FileId × SectionState × Reader)

namespace PassState

/-- Enter a file that an include found. -/
def enterFile (state : PassState) (enter : Enter) (line : Nat) (reference : String)
    (target : Path) : PassState :=
  if target ∈ state.reader.openFiles then state.report line (.circularInclude reference)
  else
    let pass := { state.pass with includes := state.pass.includes ++ [target] }
    let state := { state with pass := pass }
    match enter target pass.dialect state.place state.reader with
    | .ok (_, place, reader) => { state with place := place, reader := reader }
    | .error _ => state.report line (.unresolvedInclude reference)

def includeFile (state : PassState) (system : FileSystem) (enter : Enter) (line : Nat)
    (raw target : String) : PassState :=
  let reference := state.reader.definitions.replaceAll (Line.unquoted target)
  let (resolution, resolver) :=
    state.reader.resolver.resolve system reference (some state.pass.path)
  let state := { state with reader := { state.reader with resolver := resolver } }
  let symbol := { state.symbol .inclusion line raw reference reference with
    target := resolution.path? }
  let state := state.addSymbol symbol
  match resolution with
  | .found path => state.enterFile enter line reference path
  | .unresolved name => state.report line (.unresolvedVariable name reference)
  | .notFound | .rejected => state.report line (.unresolvedInclude reference)

/-- Follow a directive. Those that are not conditional are reached in live code only. -/
def follow (state : PassState) (system : FileSystem) (enter : Enter) (line : Nat) (raw : String) :
    Directive → Step
  | .openIf condition => state.openIf line condition
  | .openIfDefined expected arguments => state.openIfDefined line expected arguments
  | .elseIf condition => state.elseIf line condition
  | .elseBranch arguments => state.elseBranch line arguments
  | .endIf arguments => state.endIf line arguments
  | .includeFile target => (state.includeFile system enter line raw target, none)
  | .fail message =>
    (state.report line
      (.errorDirective (Line.unquoted (state.reader.definitions.replaceAll message))), none)
  | .inert => (state, none)

/-- Take in a directive. It is dead if no line was live before it and none is after it. -/
def directive (state : PassState) (system : FileSystem) (enter : Enter) (line : Nat) (raw : String)
    (directive : Directive) : Step :=
  let wasActive := state.pass.stack.isActive
  let (next, fatal) :=
    if wasActive || directive.isConditional then state.follow system enter line raw directive
    else (state, none)
  if fatal.isNone && !wasActive && !next.pass.stack.isActive then (next.markInactive line, none)
  else (next, fatal)

/-- Take in one line. -/
def step (state : PassState) (system : FileSystem) (enter : Enter) (line : Nat) (raw : String) :
    Step :=
  if Line.code raw = "" then (state, none)
  else
    match Directive.ofCode? (Line.code raw) with
    | some directive => state.directive system enter line raw directive
    | none =>
      if state.pass.stack.isActive then (state.declareLine system line raw, none)
      else (state.markInactive line, none)

/-- Take in lines from number `line` on, up to the first fatal error. -/
def steps (state : PassState) (system : FileSystem) (enter : Enter) (line : Nat) :
    List String → Step
  | [] => (state, none)
  | raw :: rest =>
    match state.step system enter line raw with
    | (state, none) => state.steps system enter (line + 1) rest
    | stopped => stopped

/-- The problem with which a pass ends: its fatal error, or conditionals left open. -/
def ending (state : PassState) (fatal : Option FatalError) : Option Diagnostic :=
  match fatal, state.pass.stack.openLines with
  | some error, _ => some (.plain ⟨state.pass.file, error.line⟩ (.fatal error))
  | none, [] => none
  | none, first :: rest =>
    some (.plain ⟨state.pass.file, first⟩ (.unterminatedConditional (rest.length + 1)))

end PassState

namespace Reader

/-- Close the innermost open file after its pass and record the pass. -/
def finish (state : PassState) (fatal : Option FatalError) : Reader :=
  let reader := { state.reader with openFiles := state.reader.openFiles.tail }
  let reader := match state.ending fatal with
    | some diagnostic => reader.report diagnostic
    | none => reader
  reader.record state.pass

/-- Make a pass over the text of a file. -/
def readText (system : FileSystem) (enter : Enter) (path : Path) (inherited : Option Dialect)
    (text : String) (place : SectionState) (reader : Reader) : FileId × SectionState × Reader :=
  let (file, files) := reader.files.number path
  let dialect := ((Dialect.ofPath? path).or inherited).getD .dsc
  let reader := { reader with files := files, openFiles := path :: reader.openFiles }
  let (state, fatal) :=
    PassState.steps ⟨reader, place, .new file path dialect⟩ system enter 0 (Text.lines text)
  (file, state.place, finish state fatal)

/-- Read a file with at most `depth` files nested in each other. -/
def readFile (system : FileSystem) : Nat → Path → Option Dialect → SectionState → Reader →
    Except ReadFailure (FileId × SectionState × Reader)
  | 0, path, _, _, _ => .error ⟨path.normalize, .notFound⟩
  | depth + 1, path, inherited, place, reader =>
    match system.read path.normalize with
    | .error failure => .error failure
    | .ok text =>
      let enter : Enter := fun path dialect place reader =>
        readFile system depth path (some dialect) place reader
      .ok (readText system enter path.normalize inherited text place reader)

/-- Read a top-level file and everything it includes. It fails only if the file
itself cannot be read. -/
def read (reader : Reader) (system : FileSystem) (path : Path) :
    Except ReadFailure (FileId × Reader) :=
  match readFile system (system.fileCount + 1) path none .initial reader with
  | .error failure => .error failure
  | .ok (file, _, reader) => .ok (file, reader)

end Reader

end FirmwareWorkspace
