import FirmwareWorkspace.Symbol

/-!
# Index of symbols

Symbols stand in slots that are never reused. The index keeps, for every name,
value, kind and file, the slots of the symbols it holds, in ascending order.
Replacing a file withdraws its slots from all four and gives its new symbols
fresh slots, so every lookup gives symbols in the order in which they were added.
-/
namespace FirmwareWorkspace

/-- Slots by key. No key has an empty list. -/
abbrev Postings (κ : Type) := List (κ × List Nat)

namespace Postings

variable {κ : Type} [DecidableEq κ]

def get (postings : Postings κ) (key : κ) : List Nat :=
  match postings with
  | [] => []
  | (other, slots) :: rest => if other = key then slots else get rest key

/-- Add a slot to the end of a key's list. -/
def add (key : κ) (slot : Nat) : Postings κ → Postings κ
  | [] => [(key, [slot])]
  | (other, slots) :: rest =>
    if other = key then (other, slots ++ [slot]) :: rest else (other, slots) :: add key slot rest

/-- Withdraw a slot from a key's list, and the key with its last slot. -/
def withdraw (key : κ) (slot : Nat) : Postings κ → Postings κ
  | [] => []
  | (other, slots) :: rest =>
    if other = key then
      let left := slots.filter (· ≠ slot)
      if left = [] then rest else (other, left) :: rest
    else (other, slots) :: withdraw key slot rest

end Postings

structure SymbolIndex where
  slots : Array Symbol
  byName : Postings String
  byValue : Postings String
  byKind : Postings SymbolKind
  /-- Files in the order in which they were added, also those without symbols. -/
  byFile : List (FileId × List Nat)
  deriving Repr, Inhabited

namespace SymbolIndex

def empty : SymbolIndex := ⟨#[], [], [], [], []⟩

/-- The symbols in some slots. -/
def collect (index : SymbolIndex) (slots : List Nat) : List Symbol :=
  slots.filterMap fun slot => index.slots[slot]?

/-- Withdraw one slot from the lists of its symbol. -/
def withdraw (index : SymbolIndex) (slot : Nat) : SymbolIndex :=
  match index.slots[slot]? with
  | none => index
  | some symbol =>
    { index with
      byName := Postings.withdraw symbol.name slot index.byName
      byValue := Postings.withdraw symbol.value slot index.byValue
      byKind := Postings.withdraw symbol.kind slot index.byKind }

/-- Forget a file. -/
def remove (index : SymbolIndex) (file : FileId) : SymbolIndex :=
  let slots := (index.byFile.lookup file).getD []
  let index := slots.foldl withdraw index
  { index with byFile := index.byFile.filter (·.1 ≠ file) }

/-- Give a symbol the next slot. -/
def push (index : SymbolIndex) (symbol : Symbol) : SymbolIndex :=
  let slot := index.slots.size
  { index with
    slots := index.slots.push symbol
    byName := Postings.add symbol.name slot index.byName
    byValue := Postings.add symbol.value slot index.byValue
    byKind := Postings.add symbol.kind slot index.byKind }

/-- Add the symbols of a file in place of those it had. -/
def add (index : SymbolIndex) (file : FileId) (symbols : List Symbol) : SymbolIndex :=
  let index := index.remove file
  let slots := (List.range symbols.length).map (index.slots.size + ·)
  let index := symbols.foldl push index
  { index with byFile := index.byFile ++ [(file, slots)] }

/-- Every symbol, file by file. -/
def symbols (index : SymbolIndex) : List Symbol :=
  index.byFile.flatMap fun (_, slots) => index.collect slots

def named (index : SymbolIndex) (name : String) : List Symbol :=
  index.collect (index.byName.get name)

def valued (index : SymbolIndex) (value : String) : List Symbol :=
  index.collect (index.byValue.get value)

def ofKind (index : SymbolIndex) (kind : SymbolKind) : List Symbol :=
  index.collect (index.byKind.get kind)

def ofKindNamed (index : SymbolIndex) (kind : SymbolKind) (name : String) : List Symbol :=
  (index.named name).filter (·.kind = kind)

/-- Symbols declared under a qualifier that matches. -/
def qualified (index : SymbolIndex) (sectionType arch moduleType : String) : List Symbol :=
  index.symbols.filter (·.isMatch sectionType arch moduleType)

/-- Symbols of a name in the file with this path. -/
def namedIn (index : SymbolIndex) (name path : String) : List Symbol :=
  (index.named name).filter (·.path.text = path)

def inFile (index : SymbolIndex) (file : FileId) : List Symbol :=
  index.collect ((index.byFile.lookup file).getD [])

def files (index : SymbolIndex) : List FileId :=
  index.byFile.map (·.1)

def size (index : SymbolIndex) : Nat :=
  (index.byFile.flatMap (·.2)).length

def fileCount (index : SymbolIndex) : Nat :=
  index.byFile.length

end SymbolIndex

end FirmwareWorkspace
