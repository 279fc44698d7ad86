import FirmwareWorkspace.Position
import FirmwareWorkspace.Text.Cut
import FirmwareWorkspace.Text.Word

/-!
# PCD values

A PCD is a build constant with a namespace and a name. The table is the record
of all assignments in order; the current value of a PCD is its last assignment.
-/
namespace FirmwareWorkspace

structure PcdEntry where
  space : String
  name : String
  value : String
  location : Location
  deriving DecidableEq, Repr

structure PcdTable where
  assignments : List PcdEntry
  deriving DecidableEq, Repr, Inhabited

namespace PcdTable

def empty : PcdTable := ⟨[]⟩

/-- Record an assignment. -/
def set (table : PcdTable) (space name value : String) (location : Location) : PcdTable :=
  ⟨table.assignments ++ [⟨space, name, Text.trim value, location⟩]⟩

/-- Every assignment of a PCD, oldest first. -/
def history (table : PcdTable) (space name : String) : List PcdEntry :=
  table.assignments.filter fun entry => entry.space = space ∧ entry.name = name

def find? (table : PcdTable) (space name : String) : Option PcdEntry :=
  (table.history space name).getLast?

def value? (table : PcdTable) (space name : String) : Option String :=
  (table.find? space name).map (·.value)

def spaces (table : PcdTable) : List String :=
  (table.assignments.map (·.space)).eraseDups

/-- The names assigned in a namespace, in the order of their first assignment. -/
def namesIn (table : PcdTable) (space : String) : List String :=
  ((table.assignments.filter (·.space = space)).map (·.name)).eraseDups

/-- Every PCD, namespace by namespace. -/
def keys (table : PcdTable) : List (String × String) :=
  table.spaces.flatMap fun space => (table.namesIn space).map fun name => (space, name)

/-- The current entry of every PCD, namespace by namespace. -/
def entries (table : PcdTable) : List PcdEntry :=
  table.keys.filterMap fun (space, name) => table.find? space name

def size (table : PcdTable) : Nat :=
  table.keys.length

/-- A character inside a segment of a PCD name. -/
def inSegment (c : Char) : Bool :=
  Chars.isWord c || c == '[' || c == ']'

/-- Length of a run of segments that goes on from inside a segment: the rest of
the segment, and every further segment after a dot. -/
def tailSize : List Char → Nat
  | [] => 0
  | [c] => if inSegment c then 1 else 0
  | c :: d :: rest =>
    if inSegment c then tailSize (d :: rest) + 1
    else if c = '.' && Chars.isWord d then tailSize rest + 2
    else 0

/-- Length of the dotted name at the beginning of a text, if there is one with a dot. -/
def dottedSize? : List Char → Option Nat
  | [] => none
  | c :: rest =>
    let size := tailSize rest + 1
    if Chars.isWord c && ((c :: rest).take size).contains '.' then some size else none

/-- Replace dotted names by their values, from left to right; the first `covered`
characters belong to a name already passed. Names without a value stay as they are. -/
def substitute (value? : String → String → Option String) (covered : Nat) : List Char → List Char
  | [] => []
  | c :: rest =>
    match covered with
    | left + 1 => substitute value? left rest
    | 0 =>
      match dottedSize? (c :: rest) with
      | none => c :: substitute value? 0 rest
      | some size =>
        let name := (c :: rest).take size
        let value := (Chars.splitOnce '.' name).bind fun (space, name) =>
          value? (.ofList space) (.ofList name)
        (value.map String.toList).getD name ++ substitute value? (size - 1) rest

/-- Put current values in the place of PCD names. -/
def replaceInLine (table : PcdTable) (line : String) : String :=
  .ofList (substitute table.value? 0 line.toList)

end PcdTable

end FirmwareWorkspace
