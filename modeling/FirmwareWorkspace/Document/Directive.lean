import FirmwareWorkspace.Text.Cut

/-!
# Directives

A line whose code starts with an exclamation mark is a directive. Comments start
at a number sign outside double quotes.
-/
namespace FirmwareWorkspace

namespace Line

/-- The text before a comment. -/
def dropComment (quoted : Bool) : List Char → List Char
  | [] => []
  | c :: rest =>
    if c = '"' then c :: dropComment (!quoted) rest
    else if c = '#' ∧ !quoted then []
    else c :: dropComment quoted rest

/-- The code of a line: without its comment and without blanks around it. -/
def code (raw : String) : String :=
  .ofList (Chars.trim (dropComment false raw.toList))

/-- Number of bytes of the blanks in front of a line. -/
def indentation (raw : String) : Nat :=
  Chars.byteLength (raw.toList.takeWhile Chars.isBlank)

/-- The text between double quotes, or the text itself. -/
def unquoted (text : String) : String :=
  let cs := Chars.trim text.toList
  .ofList (((Chars.dropFront? ['"'] cs).bind (Chars.dropBack? ['"'])).getD cs)

end Line

inductive Directive where
  | openIf (condition : String)
  /-- Opens a conditional on whether a macro is defined. -/
  | openIfDefined (expected : Bool) (arguments : String)
  | elseIf (condition : String)
  | elseBranch (arguments : String)
  | endIf (arguments : String)
  | includeFile (target : String)
  /-- Reports its message as an error. -/
  | fail (message : String)
  /-- A message to the log, or a directive that is not known; neither has an effect. -/
  | inert
  deriving DecidableEq, Repr

namespace Directive

/-- The directive of a line's code. The keyword ends at the first character that
is not an ASCII letter, and its letter case does not matter. -/
def ofCode? (code : String) : Option Directive :=
  match code.toList with
  | '!' :: rest =>
    let arguments := String.ofList (Chars.trim (rest.dropWhile Char.isAlpha))
    some <| match String.ofList (Chars.lower (rest.takeWhile Char.isAlpha)) with
      | "if" => openIf arguments
      | "ifdef" => openIfDefined true arguments
      | "ifndef" => openIfDefined false arguments
      | "elseif" => elseIf arguments
      | "else" => elseBranch arguments
      | "endif" => endIf arguments
      | "include" => includeFile arguments
      | "error" => fail arguments
      | _ => inert
  | _ => none

/-- Conditional directives are followed in dead code too. -/
def isConditional : Directive → Bool
  | openIf _ | openIfDefined _ _ | elseIf _ | elseBranch _ | endIf _ => true
  | _ => false

/-- The name that `$(NAME)` or `NAME` stands for. -/
def macroName (argument : List Char) : List Char :=
  ((Chars.dropFront? ['$', '('] argument).bind (Chars.dropBack? [')'])).getD argument

/-- The only argument, read as a macro name. -/
def soleName? (arguments : String) : Option String :=
  match Chars.words arguments.toList with
  | [argument] => some (.ofList (macroName argument))
  | _ => none

end Directive

end FirmwareWorkspace
