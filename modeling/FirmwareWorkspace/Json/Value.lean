import FirmwareWorkspace.Json.Quoted

/-!
# JSON values

Of numbers only the natural ones keep their value; nothing here needs others.
The members of an object keep their order and may repeat.
-/
namespace FirmwareWorkspace.Json

inductive Value where
  | null
  | bool (value : Bool)
  | natural (value : Nat)
  /-- A number that is not written as a natural number. -/
  | otherNumber
  | string (text : String)
  | array (elements : List Value)
  | object (members : List (String × Value))
  deriving Repr, Inhabited

namespace Value

def strings (texts : List String) : Value :=
  array (texts.map string)

/-- The text of a string. -/
def string? : Value → Option String
  | string text => some text
  | _ => none

def natural? : Value → Option Nat
  | natural value => some value
  | _ => none

/-- The texts of an array of strings. -/
def strings? : Value → Option (List String)
  | array elements => elements.mapM string?
  | _ => none

/-- The members of an object of strings. -/
def stringMembers? : Value → Option (List (String × String))
  | object members => members.mapM fun (name, value) => value.string?.map fun text => (name, text)
  | _ => none

mutual

/-- The form without blanks. -/
def compact : Value → String
  | null => "null"
  | bool value => if value then "true" else "false"
  | natural value => toString value
  | otherNumber => "null"
  | string text => quote text
  | array elements => "[" ++ ",".intercalate (compactElements elements) ++ "]"
  | object members => "\x7b" ++ ",".intercalate (compactMembers members) ++ "\x7d"

def compactElements : List Value → List String
  | [] => []
  | value :: rest => value.compact :: compactElements rest

def compactMembers : List (String × Value) → List String
  | [] => []
  | (name, value) :: rest => (quote name ++ ":" ++ value.compact) :: compactMembers rest

end

def indent (depth : Nat) : String :=
  .ofList (List.replicate (2 * depth) ' ')

/-- Items between brackets, one to a line; empty brackets stand together. -/
def layout (opening closing : String) (depth : Nat) (items : List String) : String :=
  if items = [] then opening ++ closing
  else
    let lines := items.map fun item => indent (depth + 1) ++ item
    opening ++ "\n" ++ ",\n".intercalate lines ++ "\n" ++ indent depth ++ closing

mutual

/-- The form with every element and member on a line of its own. -/
def spread (depth : Nat) : Value → String
  | array elements => layout "[" "]" depth (spreadElements (depth + 1) elements)
  | object members => layout "\x7b" "\x7d" depth (spreadMembers (depth + 1) members)
  | null => "null"
  | bool value => if value then "true" else "false"
  | natural value => toString value
  | otherNumber => "null"
  | string text => quote text

def spreadElements (depth : Nat) : List Value → List String
  | [] => []
  | value :: rest => value.spread depth :: spreadElements depth rest

def spreadMembers (depth : Nat) : List (String × Value) → List String
  | [] => []
  | (name, value) :: rest => (quote name ++ ": " ++ value.spread depth) :: spreadMembers depth rest

end

end Value

end FirmwareWorkspace.Json
