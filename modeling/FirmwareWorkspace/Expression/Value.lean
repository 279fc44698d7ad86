import FirmwareWorkspace.Expression.Error
import FirmwareWorkspace.Expression.Integer
import FirmwareWorkspace.Text.Cut

/-!
# Values of the condition language

The text bound to a macro or a PCD is read as a boolean, an integer or a string,
in this order. An unbound reference has no value of its own: comparisons with it
are false.
-/
namespace FirmwareWorkspace.Expression

inductive Value where
  | bool (value : Bool)
  | int (value : Int)
  | str (text : String)
  | undefined
  deriving DecidableEq, Repr

namespace Value

/-- The text between matching quotes, with an optional `L` in front. -/
def unquoted? (cs : List Char) : Option (List Char) :=
  match (Chars.dropFront? ['L'] cs).getD cs with
  | '"' :: rest => Chars.dropBack? ['"'] rest
  | '\'' :: rest => Chars.dropBack? ['\''] rest
  | _ => none

/-- A hexadecimal number after `0x`, or a decimal number. -/
def integer? (cs : List Char) : Option Int :=
  let hex := ((Chars.dropFront? ['0', 'x'] cs).or (Chars.dropFront? ['0', 'X'] cs)).bind
    (Integer.ofDigits? 16 Chars.isHexDigit)
  hex.or (Integer.ofDigits? 10 Char.isDigit cs)

def ofChars (cs : List Char) : Value :=
  if Chars.sameLetters cs "TRUE".toList then bool true
  else if Chars.sameLetters cs "FALSE".toList then bool false
  else
    match integer? cs with
    | some value => int value
    | none => str (.ofList ((unquoted? cs).getD cs))

/-- The typed reading of bound text. Surrounding blanks do not count. -/
def ofText (text : String) : Value :=
  ofChars (Chars.trim text.toList)

def kind : Value → ValueKind
  | bool _ => .boolean
  | int _ => .integer
  | str _ => .string
  | undefined => .undefined

/-- Whether a value counts as true. -/
def truthy : Value → Bool
  | bool value => value
  | int value => value ≠ 0
  | str text => text ≠ ""
  | undefined => false

/-- Integer view: booleans count as 0 and 1, and text that reads as an integer counts as it. -/
def asInt : Value → Option Int
  | bool value => some (if value then 1 else 0)
  | int value => some value
  | str text =>
    match ofText text with
    | int value => some value
    | _ => none
  | undefined => none

def render : Value → String
  | bool value => truthText value
  | int value => toString value
  | str text => text
  | undefined => "<undefined>"

end Value

end FirmwareWorkspace.Expression
