import FirmwareWorkspace.Document.Basic

/-!
# Following conditional directives

A condition with a syntax error is reported and counts as false. Any other error
in a condition, and a branch or closing directive without an open conditional,
stops the file. A second last branch is reported and otherwise ignored.
-/
namespace FirmwareWorkspace

/-- A state, and the error that stops the file there. -/
abbrev Step := PassState × Option FatalError

namespace PassState

/-- Read a condition; a syntax error counts as false. -/
def recovered (result : Except Expression.EvalError Bool) : Except Expression.EvalError Bool :=
  match result with
  | .error (.badSyntax _ _) => .ok false
  | other => other

/-- Report the syntax error of a condition. -/
def reportSyntax (state : PassState) (line : Nat) (result : Except Expression.EvalError Bool) :
    PassState :=
  match result with
  | .error (.badSyntax column fault) =>
    state.report line (.malformedConditional (Expression.EvalError.badSyntax column fault).message)
  | _ => state

def fatal (state : PassState) (line : Nat) (cause : FatalCause) : Step :=
  (state, some ⟨line, cause⟩)

def openIf (state : PassState) (line : Nat) (condition : String) : Step :=
  let stack := state.pass.stack
  if stack.evaluatesIf then
    let result := Expression.evaluateCondition state.reader.scope condition
    let state := state.reportSyntax line result
    match stack.openIf line fun _ => recovered result with
    | .ok stack => (state.setStack stack, none)
    | .error error => state.fatal line (.expression error)
  else (state.setStack (stack.push line false), none)

def openIfDefined (state : PassState) (line : Nat) (expected : Bool) (arguments : String) : Step :=
  match Directive.soleName? arguments with
  | some name =>
    let holds := state.reader.definitions.isDefined name == expected
    (state.setStack (state.pass.stack.push line holds), none)
  | none =>
    let keyword := if expected then "ifdef" else "ifndef"
    let state := state.report line
      (.malformedConditional ("`!" ++ keyword ++ "` takes exactly one macro name"))
    (state.setStack (state.pass.stack.push line false), none)

/-- A branch directive that cannot be applied. -/
def branchError (state : PassState) (line : Nat) (directive : String) : BranchError → Step
  | .underflow => state.fatal line (.underflow directive)
  | .afterElse =>
    (state.report line (.malformedConditional ("`!" ++ directive ++ "` after `!else`")), none)

def elseIf (state : PassState) (line : Nat) (condition : String) : Step :=
  let stack := state.pass.stack
  let result := fun (_ : Unit) => Expression.evaluateCondition state.reader.scope condition
  let state := if stack.evaluatesElseIf then state.reportSyntax line (result ()) else state
  match stack.elseIf fun _ => recovered (result ()) with
  | .error error => state.branchError line "elseif" error
  | .ok (stack, none) => (state.setStack stack, none)
  | .ok (stack, some error) => (state.setStack stack).fatal line (.expression error)

/-- Report arguments where none are allowed. -/
def rejectArguments (state : PassState) (line : Nat) (directive arguments : String) : PassState :=
  if arguments = "" then state
  else state.report line (.malformedConditional ("`!" ++ directive ++ "` takes no arguments"))

def elseBranch (state : PassState) (line : Nat) (arguments : String) : Step :=
  let state := state.rejectArguments line "else" arguments
  match state.pass.stack.elseBranch with
  | .ok stack => (state.setStack stack, none)
  | .error error => state.branchError line "else" error

def endIf (state : PassState) (line : Nat) (arguments : String) : Step :=
  let state := state.rejectArguments line "endif" arguments
  match state.pass.stack.close with
  | .ok stack => (state.setStack stack, none)
  | .error _ => state.fatal line (.underflow "endif")

end PassState

end FirmwareWorkspace
