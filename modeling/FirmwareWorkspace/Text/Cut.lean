import FirmwareWorkspace.Text.Blank

/-!
# Cutting text apart

Removing a known beginning or end, cutting at the first separator, and the
ASCII letter case. Letter case outside ASCII is never folded.
-/
namespace FirmwareWorkspace

namespace Chars

/-- What follows `front`, if the text begins with it. -/
def dropFront? : List Char → List Char → Option (List Char)
  | [], cs => some cs
  | _ :: _, [] => none
  | f :: front, c :: cs => if f = c then dropFront? front cs else none

/-- What precedes `back`, if the text ends with it. -/
def dropBack? (back cs : List Char) : Option (List Char) :=
  (dropFront? back.reverse cs.reverse).map List.reverse

/-- The text before and after the first `separator`. -/
def splitOnce (separator : Char) : List Char → Option (List Char × List Char)
  | [] => none
  | c :: rest =>
    if c = separator then some ([], rest)
    else (splitOnce separator rest).map fun (before, after) => (c :: before, after)

/-- Whether `part` occurs in the text. -/
def contains (part : List Char) : List Char → Bool
  | [] => part.isEmpty
  | c :: rest => (dropFront? part (c :: rest)).isSome || contains part rest

def lower (cs : List Char) : List Char :=
  cs.map Char.toLower

def upper (cs : List Char) : List Char :=
  cs.map Char.toUpper

/-- Equality up to the case of ASCII letters. -/
def sameLetters (left right : List Char) : Bool :=
  lower left == lower right

/-- First character of an identifier: an ASCII letter or an underscore. -/
def isIdentStart (c : Char) : Bool :=
  c.isAlpha || c == '_'

/-- Later character of an identifier. -/
def isIdentPart (c : Char) : Bool :=
  c.isAlphanum || c == '_'

end Chars

namespace Text

def lower (text : String) : String :=
  .ofList (Chars.lower text.toList)

def upper (text : String) : String :=
  .ofList (Chars.upper text.toList)

def sameLetters (left right : String) : Bool :=
  Chars.sameLetters left.toList right.toList

def splitOnce (separator : Char) (text : String) : Option (String × String) :=
  (Chars.splitOnce separator text.toList).map fun (before, after) => (.ofList before, .ofList after)

end Text

end FirmwareWorkspace
