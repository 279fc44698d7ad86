/-!
# Places in files

Lines and columns count from zero and are shown counting from one. Columns count
bytes of the UTF-8 form.
-/
namespace FirmwareWorkspace

/-- The number that a load gives to a file. -/
structure FileId where
  index : Nat
  deriving DecidableEq, Repr, Inhabited

namespace FileId

def render (file : FileId) : String :=
  "file#" ++ toString file.index

/-- The form used in debugging output. -/
def inspect (file : FileId) : String :=
  "FileId(" ++ toString file.index ++ ")"

end FileId

/-- A line of a file. -/
structure Location where
  file : FileId
  line : Nat
  deriving DecidableEq, Repr, Inhabited

/-- The form used in debugging output. -/
def Location.inspect (location : Location) : String :=
  location.file.render ++ ":" ++ toString (location.line + 1)

structure Position where
  line : Nat
  column : Nat
  deriving DecidableEq, Repr

namespace Position

/-- Line and column as shown. -/
def shown (position : Position) : Nat × Nat :=
  (position.line + 1, position.column + 1)

def render (position : Position) : String :=
  toString position.shown.1 ++ ":" ++ toString position.shown.2

end Position

/-- The lines from `first` to `last`, both included. -/
structure LineRange where
  first : Nat
  last : Nat
  deriving DecidableEq, Repr

namespace LineRange

def contains (range : LineRange) (line : Nat) : Bool :=
  range.first ≤ line && line ≤ range.last

def lineCount (range : LineRange) : Nat :=
  range.last - range.first + 1

/-- Add a line to ranges that stand last first. -/
def extend (ranges : List LineRange) (line : Nat) : List LineRange :=
  match ranges with
  | [] => [⟨line, line⟩]
  | latest :: earlier =>
    if latest.last + 1 = line then ⟨latest.first, line⟩ :: earlier
    else ⟨line, line⟩ :: latest :: earlier

/-- The maximal runs of ascending line numbers. -/
def coalesce (lines : List Nat) : List LineRange :=
  (lines.foldl extend []).reverse

end LineRange

end FirmwareWorkspace
