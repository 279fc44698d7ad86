import FirmwareWorkspace.Path
import FirmwareWorkspace.Registry
import FirmwareWorkspace.Text.Utf8

/-!
# Files on a disk

A disk holds byte contents below the working directory, each under the names on
the way to it. Names are taken literally: only the slash separates them. A path is
followed step by step: every step but the last must arrive at a directory, also
where a parent step takes it back. What lies above the working directory counts as
a directory without known contents.

A path of more than `longestPath` bytes is refused as a whole. A name of more than
`longestName` bytes is refused where it is looked up, so faults of the steps before
it come first.
-/
namespace FirmwareWorkspace

inductive FileFault where
  | notFound
  | isDirectory
  | notDirectory
  /-- The path or one of its names is too long. -/
  | tooLong
  /-- The path holds the character NUL, which no path may hold. -/
  | holdsNul
  | notText
  deriving DecidableEq, Repr

structure DiskFiles where
  files : List (List String × List UInt8)
  /-- The directories that were made, also those that hold nothing. -/
  directories : List (List String)
  deriving DecidableEq, Repr, Inhabited

namespace DiskFiles

/-- Largest number of bytes of a path. -/
def longestPath : Nat := 4095

/-- Largest number of bytes of a name. -/
def longestName : Nat := 255

def empty : DiskFiles := ⟨[], []⟩

/-- Where a path leads: to the names below the working directory, or above it. -/
inductive Spot where
  | below (names : List String)
  | above
  deriving DecidableEq, Repr

def contents? (disk : DiskFiles) (names : List String) : Option (List UInt8) :=
  disk.files.lookup names

/-- The working directory always is one. -/
def isDirectory (disk : DiskFiles) (names : List String) : Bool :=
  names.isEmpty || disk.directories.contains names

def isLongName (segment : List Char) : Bool :=
  longestName < Chars.byteLength segment

/-- One step from a spot that must be a directory. -/
def step (disk : DiskFiles) (spot : Spot) (segment : List Char) : Except FileFault Spot :=
  match spot with
  | .above =>
    if segment = [] ∨ segment = ['.'] ∨ segment = ['.', '.'] then .ok .above
    else .error (if isLongName segment then .tooLong else .notFound)
  | .below names =>
    if !disk.isDirectory names then .error .notDirectory
    else if segment = [] ∨ segment = ['.'] then .ok spot
    else if segment = ['.', '.'] then
      .ok (if names = [] then .above else .below names.dropLast)
    else if isLongName segment then .error .tooLong
    else
      let target := names ++ [.ofList segment]
      if (disk.contents? target).isSome || disk.isDirectory target then .ok (.below target)
      else .error .notFound

def follow (disk : DiskFiles) : Spot → List (List Char) → Except FileFault Spot
  | spot, [] => .ok spot
  | spot, segment :: rest =>
    match disk.step spot segment with
    | .error fault => .error fault
    | .ok next => disk.follow next rest

/-- What is wrong with a path before any of its names is looked up. -/
def pathFault? (path : Path) : Option FileFault :=
  if path.text.toList.contains '\x00' then some .holdsNul
  else if path.text = "" then some .notFound
  else if longestPath < Text.byteLength path.text then some .tooLong
  else none

/-- Where the first step of a path starts. -/
def origin (path : Path) : Spot :=
  if path.isAbsolute then .above else .below []

/-- Where a path leads. The empty path leads nowhere. -/
def locate (disk : DiskFiles) (path : Path) : Except FileFault Spot :=
  match pathFault? path with
  | some fault => .error fault
  | none => disk.follow (origin path) path.segments

def contains (disk : DiskFiles) (path : Path) : Bool :=
  (disk.locate path).toOption.isSome

def bytes (disk : DiskFiles) (path : Path) : Except FileFault (List UInt8) :=
  match disk.locate path with
  | .error fault => .error fault
  | .ok .above => .error .isDirectory
  | .ok (.below names) =>
    match disk.contents? names with
    | some bytes => .ok bytes
    | none => .error .isDirectory

/-- The contents as text, where malformed bytes are replaced. -/
def read (disk : DiskFiles) (path : Path) : Except FileFault String :=
  (disk.bytes path).map Utf8.decodeLenient

/-- The contents as text, where malformed bytes are refused. -/
def readStrict (disk : DiskFiles) (path : Path) : Except FileFault String :=
  match disk.bytes path with
  | .error fault => .error fault
  | .ok bytes =>
    match Utf8.decode? bytes with
    | some text => .ok text
    | none => .error .notText

/-- Put contents under some names, in place of those that were there. -/
def put (disk : DiskFiles) (names : List String) (bytes : List UInt8) : DiskFiles :=
  { disk with files := disk.files.filter (·.1 ≠ names) ++ [(names, bytes)] }

/-- The names passed on the way along some segments, with the names that end it. -/
def trail (names : List String) : List (List Char) → List (List String) × List String
  | [] => ([], names)
  | segment :: rest =>
    let next :=
      if segment = [] ∨ segment = ['.'] then names
      else if segment = ['.', '.'] then names.dropLast
      else names ++ [.ofList segment]
    let (passed, last) := trail next rest
    (names :: passed, last)

/-- Place a file, and make the directories on the way to it. -/
def place (disk : DiskFiles) (path : Path) (bytes : List UInt8) : DiskFiles :=
  let (passed, names) := trail [] path.segments
  { disk with directories := Registry.addAllNew (· == ·) disk.directories passed }.put names bytes

/-- Where the last name of a path is looked up or created: the spot of its parent,
the name, and whether separators follow it. A path of separators alone has no name. -/
def parentSpot (disk : DiskFiles) (path : Path) : Except FileFault (Spot × List Char × Bool) :=
  match pathFault? path, path.segments.reverse.dropWhile (· == []) with
  | some fault, _ => .error fault
  | none, [] => .error .isDirectory
  | none, last :: earlier =>
    let slashed := path.segments.getLast? == some []
    match disk.follow (origin path) earlier.reverse with
    | .error fault => .error fault
    | .ok .above => .ok (.above, last, slashed)
    | .ok (.below names) =>
      if disk.isDirectory names then .ok (.below names, last, slashed) else .error .notDirectory

/-- Write a file into an existing directory. Files above the working directory are
written, but not kept track of. -/
def write (disk : DiskFiles) (path : Path) (text : String) : Except FileFault DiskFiles :=
  match disk.parentSpot path with
  | .error fault => .error fault
  | .ok (spot, last, slashed) =>
    if slashed || last == ['.'] || last == ['.', '.'] then .error .isDirectory
    else if isLongName last then .error .tooLong
    else
      match spot with
      | .above => .ok disk
      | .below names =>
        let target := names ++ [.ofList last]
        if disk.isDirectory target then .error .isDirectory
        else .ok (disk.put target text.toByteArray.toList)

def isHidden (name : String) : Bool :=
  name.toList.head? == some '.'

/-- The names from a directory down to a file below it. -/
def below? (directory file : List String) : Option (List String) :=
  if directory.isPrefixOf file && file != directory then some (file.drop directory.length) else none

/-- The path that some names below `root` have. -/
def extend (root : Path) (names : List String) : Path :=
  names.foldl (fun path name => path.join ⟨name⟩) root

/-- Whether a search from `root` comes by the file with these names below it.
Hidden files and the contents of hidden directories are passed over, and so is what
lies in a directory whose path is too long. -/
def isReached (root : Path) (names : List String) : Bool :=
  !names.any isHidden && Text.byteLength (extend root names.dropLast).text ≤ longestPath

/-- The files below `root` that have this name, in path order. -/
def search (disk : DiskFiles) (root : Path) (name : String) : List Path :=
  match disk.locate root with
  | .error _ | .ok .above => []
  | .ok (.below names) =>
    if (disk.contents? names).isSome then
      if root.fileName?.getD root.text = name then [root] else []
    else
      Path.ordered (disk.files.filterMap fun (file, _) =>
        (below? names file).bind fun rest =>
          if rest.getLast? == some name && isReached root rest then some (extend root rest)
          else none)

end DiskFiles

end FirmwareWorkspace
