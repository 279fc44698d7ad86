import FirmwareWorkspace.Position
import FirmwareWorkspace.Registry
import FirmwareWorkspace.Text.Cut

/-!
# Macro definitions

A table binds names to text and keeps the order in which names were first bound.
A reference `$(NAME)` is replaced by the bound text; since that text may hold
references too, replacing is repeated until a pass changes nothing, at most
`maxPasses` times. References to unbound names stay as they are.
-/
namespace FirmwareWorkspace

structure Definition where
  name : String
  value : String
  /-- Where the macro was defined; none for a value from the configuration. -/
  location : Option Location
  deriving DecidableEq, Repr

structure DefinitionTable where
  definitions : List Definition
  /-- Bound on the passes of `replaceAll`; one pass is always made. -/
  maxPasses : Nat
  deriving DecidableEq, Repr, Inhabited

namespace DefinitionTable

def defaultPasses : Nat := 10

/-- A table without definitions. -/
def new (maxPasses : Nat) : DefinitionTable :=
  ⟨[], max maxPasses 1⟩

def find? (table : DefinitionTable) (name : String) : Option Definition :=
  table.definitions.find? (·.name = name)

def value? (table : DefinitionTable) (name : String) : Option String :=
  (table.find? name).map (·.value)

def isDefined (table : DefinitionTable) (name : String) : Bool :=
  (table.find? name).isSome

/-- The stored form of a value: trimmed, with truth values in capitals. -/
def stored (value : String) : String :=
  let value := Text.trim value
  if Text.sameLetters value "true" then "TRUE"
  else if Text.sameLetters value "false" then "FALSE"
  else value

/-- Bind a name, and give back the definition that was replaced. -/
def set (table : DefinitionTable) (name value : String) (location : Option Location) :
    Option Definition × DefinitionTable :=
  let definition : Definition := ⟨name, stored value, location⟩
  (table.find? name,
    { table with definitions := Registry.put Definition.name definition table.definitions })

/-- The name of a reference at the beginning of a text. It covers three more
characters than the name has. -/
def referenceName? : List Char → Option (List Char)
  | '$' :: '(' :: c :: rest =>
    let name := c :: rest.takeWhile Chars.isIdentPart
    if Chars.isIdentStart c && (rest.dropWhile Chars.isIdentPart).head? == some ')' then some name
    else none
  | _ => none

/-- Replace references once, from left to right; the first `covered` characters
belong to a reference already replaced. -/
def substitute (value? : String → Option String) (covered : Nat) : List Char → List Char
  | [] => []
  | c :: rest =>
    match covered with
    | left + 1 => substitute value? left rest
    | 0 =>
      match referenceName? (c :: rest) with
      | none => c :: substitute value? 0 rest
      | some name =>
        match value? (.ofList name) with
        | none => c :: substitute value? 0 rest
        | some value => value.toList ++ substitute value? (name.length + 2) rest

/-- One pass over a text. -/
def pass (table : DefinitionTable) (cs : List Char) : List Char :=
  substitute table.value? 0 cs

/-- Passes until nothing changes, at most `count` of them. -/
def passes (table : DefinitionTable) : Nat → List Char → List Char
  | 0, cs => cs
  | count + 1, cs =>
    let next := table.pass cs
    if next = cs then cs else table.passes count next

def replaceAll (table : DefinitionTable) (text : String) : String :=
  .ofList (table.passes table.maxPasses text.toList)

/-- The names of all references in a text, from left to right. -/
def referenceNames (covered : Nat) : List Char → List String
  | [] => []
  | c :: rest =>
    match covered with
    | left + 1 => referenceNames left rest
    | 0 =>
      match referenceName? (c :: rest) with
      | none => referenceNames 0 rest
      | some name => .ofList name :: referenceNames (name.length + 2) rest

def unresolvedNames (table : DefinitionTable) (text : String) : List String :=
  (referenceNames 0 text.toList).filter fun name => !table.isDefined name

/-- The value of a macro as conditions see it, with its references replaced. -/
def macroText (table : DefinitionTable) (name : String) : Option String :=
  (table.value? name).map table.replaceAll

end DefinitionTable

end FirmwareWorkspace
