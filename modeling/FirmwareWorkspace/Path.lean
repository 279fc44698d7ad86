import FirmwareWorkspace.Ascending
import FirmwareWorkspace.Text.Cut

/-!
# Paths

A path keeps its spelling. Its parts are what the spelling means: repeated and
trailing separators and single dots after the beginning stand for nothing. Paths
are compared and ordered by their parts, so two spellings of the same parts agree.

Normalizing is lexical. A parent step takes back the name before it; where there
is none it stays, and the next parent step takes it back like any other name.
-/
namespace FirmwareWorkspace

structure Path where
  text : String
  deriving DecidableEq, Repr, Inhabited

namespace Path

inductive Part where
  | root
  /-- A single dot at the beginning of a relative path. -/
  | here
  | up
  | name (text : String)
  deriving DecidableEq, Repr

/-- The text between separators. -/
def segments (path : Path) : List (List Char) :=
  Chars.fields (· == '/') path.text.toList

/-- What a segment after the beginning stands for. -/
def Part.ofSegment? (segment : List Char) : Option Part :=
  if segment = [] ∨ segment = ['.'] then none
  else if segment = ['.', '.'] then some .up
  else some (.name (.ofList segment))

/-- What the first segment stands for. An empty one before a separator is the root. -/
def Part.ofFirst? (segment : List Char) (alone : Bool) : Option Part :=
  if segment = [] then if alone then none else some .root
  else if segment = ['.'] then some .here
  else ofSegment? segment

def parts (path : Path) : List Part :=
  match path.segments with
  | [] => []
  | first :: rest => (Part.ofFirst? first rest.isEmpty).toList ++ rest.filterMap Part.ofSegment?

/-- Whether two spellings have the same parts. -/
def same (left right : Path) : Bool :=
  left.parts == right.parts

def isAbsolute (path : Path) : Bool :=
  path.text.toList.head? == some '/'

def startsWith (path front : Path) : Bool :=
  front.parts.isPrefixOf path.parts

def endsWith (path back : Path) : Bool :=
  back.parts.isSuffixOf path.parts

/-! ### Order -/

/-- The root comes before a leading dot, then parent steps, then names by their text. -/
def Part.precedes : Part → Part → Bool
  | name left, name right => left < right
  | left, right => rank left < rank right
where
  rank : Part → Nat
    | root => 0
    | here => 1
    | up => 2
    | name _ => 3

def comesBefore : List Part → List Part → Bool
  | [], [] => false
  | [], _ :: _ => true
  | _ :: _, [] => false
  | left :: lefts, right :: rights =>
    left.precedes right || (left == right && comesBefore lefts rights)

/-- The order of paths: part by part, a path before its extensions. -/
def before (left right : Path) : Bool :=
  comesBefore left.parts right.parts

/-- The distinct paths of a list in ascending order. -/
def ordered (paths : List Path) : List Path :=
  Ascending.ofList before paths

/-! ### Building and taking apart -/

def ofNames (absolute : Bool) (names : List String) : Path :=
  ⟨(if absolute then "/" else "") ++ "/".intercalate names⟩

/-- `other` as seen from `path`; an absolute one stands alone. -/
def join (path other : Path) : Path :=
  if other.isAbsolute then other
  else if path.text = "" ∨ path.text.toList.getLast? = some '/' then ⟨path.text ++ other.text⟩
  else ⟨path.text ++ "/" ++ other.text⟩

/-- One part of the normal form; the names so far stand last first. -/
def foldPart (names : List String) : Part → List String
  | .name text => text :: names
  | .up =>
    match names with
    | [] => [".."]
    | _ :: earlier => earlier
  | .root | .here => names

/-- The path with every backslash read as a separator. -/
def unified (path : Path) : Path :=
  ⟨.ofList (path.text.toList.map fun c => if c = '\\' then '/' else c)⟩

/-- The lexical normal form. -/
def normalize (path : Path) : Path :=
  let parts := path.unified.parts
  ofNames (parts.head? == some .root) (parts.foldl foldPart []).reverse

/-- Segments that stand for nothing, at the end of a reversed list. -/
def dropEmpty (reversed : List (List Char)) : List (List Char) :=
  reversed.dropWhile fun segment => segment == [] || segment == ['.']

/-- The path without its last part. The empty path and the root have none. -/
def parent? (path : Path) : Option Path :=
  match path.segments with
  | [] => none
  | first :: rest =>
    match dropEmpty rest.reverse with
    | _ :: reversed => some (spell first (dropEmpty reversed).reverse)
    | [] => if first = [] then none else some ⟨""⟩
where
  spell (first : List Char) (rest : List (List Char)) : Path :=
    if first = [] ∧ rest = [] then ⟨"/"⟩
    else ⟨.ofList (['/'].intercalate (first :: rest))⟩

/-- The path after taking back its last part `count` times, as far as there are parts. -/
def ancestor (path : Path) : Nat → Path
  | 0 => path
  | count + 1 => (path.parent?.getD path).ancestor count

def fileName? (path : Path) : Option String :=
  match path.parts.getLast? with
  | some (.name text) => some text
  | _ => none

/-- What follows the last dot of the file name, if something precedes it. -/
def extension? (path : Path) : Option String :=
  path.fileName?.bind fun name =>
    match (Chars.fields (· == '.') name.toList).reverse with
    | back :: front :: more => if front = [] ∧ more = [] then none else some (.ofList back)
    | _ => none

/-- Whether the extension is `extension`, in any letter case. -/
def hasExtension (path : Path) (extension : String) : Bool :=
  path.extension?.any (Text.sameLetters extension)

end Path

end FirmwareWorkspace
