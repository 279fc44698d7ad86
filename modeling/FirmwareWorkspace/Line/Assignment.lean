import FirmwareWorkspace.Dialect
import FirmwareWorkspace.Text.Word

/-!
# Assignments on a line

Platform and package files assign a PCD by `Namespace.Name|Value|...`, flash
layouts by `SET Namespace.Name = Value`, and module files never. A macro is
defined by `NAME = VALUE`, with or without the word `DEFINE` in front.
-/
namespace FirmwareWorkspace.Line

/-- The text up to the first `|` outside quotes and braces. -/
def firstField (depth : Nat) (quote : Option Char) : List Char → List Char
  | [] => []
  | c :: rest =>
    match quote with
    | some opened => c :: firstField depth (if c = opened then none else some opened) rest
    | none =>
      if c = '"' ∨ c = '\'' then c :: firstField depth (some c) rest
      else if c = '{' then c :: firstField (depth + 1) none rest
      else if c = '}' then c :: firstField (depth - 1) none rest
      else if c = '|' ∧ depth = 0 then []
      else c :: firstField depth none rest

/-- An identifier at the beginning, whose later characters satisfy `isPart`. -/
def identifier? (isPart : Char → Bool) : List Char → Option (List Char × List Char)
  | [] => none
  | c :: rest =>
    if Chars.isIdentStart c then some (c :: rest.takeWhile isPart, rest.dropWhile isPart) else none

/-- The text after a separator with blanks around it. It must not run over a line end. -/
def afterSeparator? (separator : Char) (cs : List Char) : Option (List Char) :=
  match Chars.trimStart cs with
  | [] => none
  | c :: rest =>
    let value := Chars.trimStart rest
    if c = separator ∧ '\n' ∉ value then some value else none

/-- A keyword and the blanks after it. -/
def afterKeyword? (keyword : List Char) (cs : List Char) : Option (List Char) :=
  (Chars.dropFront? keyword cs).bind fun rest =>
    if rest.head?.any Chars.isBlank then some (Chars.trimStart rest) else none

structure PcdAssignment where
  space : String
  name : String
  value : String
  deriving DecidableEq, Repr

/-- `Namespace.Name`, a separator and a value. -/
def dottedAssignment? (isNamePart : Char → Bool) (separator : Char) (cs : List Char) :
    Option (List Char × List Char × List Char) :=
  (identifier? Chars.isWord cs).bind fun (space, rest) =>
    (Chars.dropFront? ['.'] rest).bind fun rest =>
      (identifier? isNamePart rest).bind fun (name, rest) =>
        (afterSeparator? separator rest).map fun value => (space, name, value)

/-- A character of a PCD name after its first. -/
def isPcdPart (c : Char) : Bool :=
  Chars.isWord c || c == '[' || c == ']'

def pcdAssignment? (dialect : Dialect) (line : String) : Option PcdAssignment :=
  match dialect with
  | .inf => none
  | .dsc | .dec =>
    (dottedAssignment? (fun c => isPcdPart c || c == '.') '|' (Chars.trimStart line.toList)).map
      fun (space, name, rest) =>
        ⟨.ofList space, .ofList name, .ofList (Chars.trim (firstField 0 none rest))⟩
  | .fdf =>
    (afterKeyword? "SET".toList (Chars.trim line.toList)).bind fun rest =>
      (dottedAssignment? isPcdPart '=' rest).map fun (space, name, value) =>
        ⟨.ofList space, .ofList name, .ofList (Chars.trim value)⟩

/-- `NAME = VALUE`. -/
def plainDefinition? (cs : List Char) : Option (List Char × List Char) :=
  (identifier? (fun c => Chars.isWord c || c == '.') cs).bind fun (name, rest) =>
    (afterSeparator? '=' rest).map fun value => (name, Chars.trim value)

/-- `NAME = VALUE`, where the word `DEFINE` may stand in front. -/
def definition? (cs : List Char) : Option (List Char × List Char) :=
  ((afterKeyword? "DEFINE".toList cs).bind plainDefinition?).or (plainDefinition? cs)

end FirmwareWorkspace.Line
