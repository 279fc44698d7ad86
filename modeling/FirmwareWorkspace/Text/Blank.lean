/-!
# Blank space

Text is read as a list of characters. A character is blank when it has the
White_Space property; trimming, splitting into words and cutting into lines
are stated over lists, and the functions on strings only convert.
-/
namespace FirmwareWorkspace

namespace Chars

/-- The characters with the White_Space property. -/
def isBlank (c : Char) : Bool :=
  let n := c.toNat
  (9 ≤ n && n ≤ 13) || n == 0x20 || n == 0x85 || n == 0xA0 || n == 0x1680 ||
    (0x2000 ≤ n && n ≤ 0x200A) || n == 0x2028 || n == 0x2029 || n == 0x202F ||
    n == 0x205F || n == 0x3000

/-- The control characters: the C0 and C1 blocks and DEL. -/
def isControl (c : Char) : Bool :=
  c.toNat < 0x20 || (0x7F ≤ c.toNat && c.toNat ≤ 0x9F)

def trimStart (cs : List Char) : List Char :=
  cs.dropWhile isBlank

def trimEnd (cs : List Char) : List Char :=
  (cs.reverse.dropWhile isBlank).reverse

def trim (cs : List Char) : List Char :=
  trimEnd (trimStart cs)

/-- The pieces between separators. There is always at least one piece. -/
def fields (separator : Char → Bool) : List Char → List (List Char)
  | [] => [[]]
  | c :: rest =>
    if separator c then [] :: fields separator rest
    else
      match fields separator rest with
      | [] => [[c]]
      | field :: others => (c :: field) :: others

/-- The maximal runs of characters that are not blank. -/
def words (cs : List Char) : List (List Char) :=
  (fields isBlank cs).filter (· ≠ [])

/-- A line that was ended by a line feed also gives up one carriage return. -/
def dropReturn (line : List Char) : List Char :=
  if line.getLast? = some '\r' then line.dropLast else line

/-- The lines of a text. A text that ends with a line feed has no empty last
line, and a carriage return counts as part of the ending only before a line feed. -/
def lines (cs : List Char) : List (List Char) :=
  let pieces := fields (· == '\n') cs
  let last := pieces.getLast?.getD []
  pieces.dropLast.map dropReturn ++ (if last = [] then [] else [last])

/-- Number of bytes of the UTF-8 form. Columns are counted in this unit. -/
def byteLength : List Char → Nat
  | [] => 0
  | c :: rest => c.utf8Size + byteLength rest

end Chars

namespace Text

def trim (text : String) : String :=
  .ofList (Chars.trim text.toList)

def words (text : String) : List String :=
  (Chars.words text.toList).map .ofList

def lines (text : String) : List String :=
  (Chars.lines text.toList).map .ofList

def byteLength (text : String) : Nat :=
  Chars.byteLength text.toList

end Text

end FirmwareWorkspace
