import FirmwareWorkspace.Expression.Error
import FirmwareWorkspace.Library

/-!
# Diagnostics

A diagnostic records a problem and its place. Code, severity and wording follow
from the problem.
-/
namespace FirmwareWorkspace

inductive Severity where
  | error | warning
  deriving DecidableEq, Repr

/-- The number of a severity in the language server protocol. -/
def Severity.number : Severity → Nat
  | error => 1
  | warning => 2

/-- What stops the reading of a file. -/
inductive FatalCause where
  /-- A branch or closing directive without an open conditional. -/
  | underflow (directive : String)
  | expression (error : Expression.EvalError)
  deriving DecidableEq, Repr

structure FatalError where
  line : Nat
  cause : FatalCause
  deriving DecidableEq, Repr

def FatalError.message (error : FatalError) : String :=
  "line " ++ toString (error.line + 1) ++ ": " ++
    match error.cause with
    | .underflow directive => "`!" ++ directive ++ "` without a matching `!if`"
    | .expression error => error.message

inductive Problem where
  | unresolvedInclude (path : String)
  | malformedConditional (message : String)
  | fatal (error : FatalError)
  | unterminatedConditional (count : Nat)
  | circularInclude (path : String)
  | errorDirective (message : String)
  | unresolvedLibrary (className arch moduleType : String)
  | ambiguousLibrary (className : String) (candidates : List String)
  | unknownSection (sectionType : String)
  | duplicateMacro (name : String)
  | unresolvedVariable (variableName path : String)
  | unresolvedPath (what path : String)
  /-- A problem that the caller words itself. -/
  | custom (severity : Severity) (code : Option String) (message : String)
  deriving DecidableEq, Repr

namespace Problem

def code : Problem → Option String
  | unresolvedInclude _ => some "E0001"
  | malformedConditional _ => some "E0002"
  | fatal error =>
    match error.cause with
    | .underflow _ => some "E0005"
    | .expression (.typeMismatch _ _ _) => some "E0003"
    | .expression .divisionByZero | .expression .moduloByZero => some "E0004"
    | .expression (.badSyntax _ _) => some "E0002"
  | unterminatedConditional _ => some "E0006"
  | circularInclude _ => some "E0007"
  | errorDirective _ => some "E0008"
  | unresolvedLibrary _ _ _ => some "W0001"
  | ambiguousLibrary _ _ => some "W0002"
  | unknownSection _ => some "W0003"
  | duplicateMacro _ => some "W0004"
  | unresolvedVariable _ _ => some "W0005"
  | unresolvedPath _ _ => some "W0006"
  | custom _ code _ => code

def severity : Problem → Severity
  | unresolvedLibrary _ _ _ | ambiguousLibrary _ _ | unknownSection _ | duplicateMacro _
  | unresolvedVariable _ _ | unresolvedPath _ _ => .warning
  | custom severity _ _ => severity
  | _ => .error

def message : Problem → String
  | unresolvedInclude path => "cannot find included file '" ++ path ++ "'"
  | malformedConditional message => "malformed conditional: " ++ message
  | fatal error => error.message
  | unterminatedConditional count =>
    toString count ++ " conditional(s) not closed by '!endif' at end of file"
  | circularInclude path => "'" ++ path ++ "' is already being processed"
  | errorDirective message => "!error " ++ message
  | unresolvedLibrary className arch moduleType =>
    "library class '" ++ className ++ "' has no instance for arch '" ++ arch ++
      "' and module type '" ++ moduleType ++ "'"
  | ambiguousLibrary className candidates =>
    "library class '" ++ className ++ "' is ambiguous: " ++ ", ".intercalate candidates
  | unknownSection sectionType => "unknown section type '" ++ sectionType ++ "'"
  | duplicateMacro name => "macro '" ++ name ++ "' is redefined"
  | unresolvedVariable variableName path =>
    "undefined variable '$(" ++ variableName ++ ")' in path '" ++ path ++ "'"
  | unresolvedPath what path => "cannot find " ++ what ++ " '" ++ path ++ "'"
  | custom _ _ message => message

end Problem

/-- A further place that explains a diagnostic. -/
structure Related where
  location : Location
  message : String
  deriving DecidableEq, Repr

structure Diagnostic where
  location : Location
  column : Nat
  problem : Problem
  related : List Related
  deriving DecidableEq, Repr

namespace Diagnostic

/-- A problem with a line, without further places. -/
def plain (location : Location) (problem : Problem) : Diagnostic :=
  ⟨location, 0, problem, []⟩

def isError (diagnostic : Diagnostic) : Bool :=
  diagnostic.problem.severity == .error

def hasCode (diagnostic : Diagnostic) (code : String) : Bool :=
  diagnostic.problem.code == some code

/-- A macro that was defined before, with the place of the earlier definition if it has one. -/
def duplicateMacro (location : Location) (name : String) (previous : Option Location) :
    Diagnostic :=
  ⟨location, 0, .duplicateMacro name,
    previous.toList.map fun place => ⟨place, "previous definition of '" ++ name ++ "'"⟩⟩

/-- A class without an instance, told at the line that uses it. -/
def unresolvedLibrary? (binding : LibraryBinding) : Option Diagnostic :=
  let context := binding.context
  binding.usage.map fun place =>
    .plain place (.unresolvedLibrary binding.className context.arch context.moduleType)

/-- A class with several instances, told at the line that uses it. -/
def ambiguousLibrary? (binding : LibraryBinding) : Option Diagnostic :=
  let candidates := binding.resolution.candidates
  binding.usage.map fun place =>
    ⟨place, 0, .ambiguousLibrary binding.className (candidates.map (·.value)),
      candidates.map fun candidate => ⟨candidate.location, "candidate: " ++ candidate.value⟩⟩

def ofBinding? (binding : LibraryBinding) : Option Diagnostic :=
  match binding.resolution with
  | .found _ => none
  | .ambiguous _ => ambiguousLibrary? binding
  | .notFound => unresolvedLibrary? binding

/-- The problems of library bindings, one for each binding that failed. -/
def ofBindings (bindings : List LibraryBinding) : List Diagnostic :=
  bindings.filterMap ofBinding?

end Diagnostic

end FirmwareWorkspace
