import FirmwareWorkspace.FileSystem.Basic
import FirmwareWorkspace.Registry

/-!
# Finding referenced files

A reference is tried next to the file that makes it, then in the workspace root,
the package paths and the roots learned so far. Only when all of these fail is
the whole workspace searched. A successful search teaches a new root, and a
reference whose search failed is remembered, so that no reference is searched
for twice.
-/
namespace FirmwareWorkspace

inductive Resolution where
  | found (path : Path)
  | notFound
  /-- The reference still holds `$(variable)`. -/
  | unresolved (variableName : String)
  /-- The reference holds characters that no file name can hold. -/
  | rejected
  deriving DecidableEq, Repr

def Resolution.path? : Resolution → Option Path
  | found path => some path
  | _ => none

/-- A reference that names an unbound variable. -/
structure UnresolvedVariable where
  variableName : String
  pathHint : String
  deriving DecidableEq, Repr

structure Resolver where
  workspaceRoot : Path
  packagePaths : List Path
  learnedRoots : List Path
  /-- References whose search failed. -/
  misses : List Path
  unresolved : List UnresolvedVariable
  /-- Number of searches of the whole workspace. -/
  searches : Nat
  deriving DecidableEq, Repr, Inhabited

namespace Resolver

/-- A resolver that has looked up nothing yet. Package paths are seen from the workspace root. -/
def new (workspaceRoot : Path) (packagePaths : List Path) : Resolver where
  workspaceRoot := workspaceRoot.normalize
  packagePaths := packagePaths.map fun path => (workspaceRoot.normalize.join path).normalize
  learnedRoots := []
  misses := []
  unresolved := []
  searches := 0

/-- Package paths, then learned roots. -/
def searchPaths (resolver : Resolver) : List Path :=
  resolver.packagePaths ++ resolver.learnedRoots

def isForbidden (c : Char) : Bool :=
  ['<', '>', '"', '|', '?', '*'].contains c || Chars.isControl c

/-- The text between the first `$(` and the parenthesis that follows it. -/
def variableIn? : List Char → Option (List Char)
  | [] => none
  | [_] => none
  | c :: d :: rest =>
    if c = '$' ∧ d = '(' then (Chars.splitOnce ')' rest).map (·.1)
    else variableIn? (d :: rest)

def note (resolver : Resolver) (entry : UnresolvedVariable) : Resolver :=
  { resolver with unresolved := Registry.addNew (· == ·) resolver.unresolved entry }

/-- The places to try for a relative reference, in order. -/
def candidates (resolver : Resolver) (reference : Path) (referrer : Option Path) : List Path :=
  let directories := (referrer.bind Path.parent?).toList ++
    resolver.workspaceRoot :: resolver.searchPaths
  directories.map fun directory => (directory.join reference).normalize

/-- Remember the directory from which a found path reads as the reference. -/
def learn (resolver : Resolver) (root : Path) : Resolver :=
  if root ∈ resolver.workspaceRoot :: resolver.searchPaths then resolver
  else { resolver with learnedRoots := resolver.learnedRoots ++ [root] }

/-- The first file of the workspace whose path ends with the reference. -/
def searchWorkspace (resolver : Resolver) (system : FileSystem) (reference : Path) (name : String) :
    Option Path :=
  ((system.search resolver.workspaceRoot name).map Path.normalize).find? (·.endsWith reference)

/-- Search the whole workspace for a reference that no candidate place holds. -/
def searchGlobally (resolver : Resolver) (system : FileSystem) (reference : Path) :
    Resolution × Resolver :=
  if reference ∈ resolver.misses then (.notFound, resolver)
  else
    match reference.fileName? with
    | none => (.notFound, { resolver with misses := reference :: resolver.misses })
    | some name =>
      let searched := { resolver with searches := resolver.searches + 1 }
      match resolver.searchWorkspace system reference name with
      | none => (.notFound, { searched with misses := reference :: searched.misses })
      | some path => (.found path, searched.learn (path.ancestor reference.parts.length))

/-- Look up a normalized reference that is free of variables. -/
def lookupPath (resolver : Resolver) (system : FileSystem) (reference : Path)
    (referrer : Option Path) (global : Bool) : Resolution × Resolver :=
  if reference.isAbsolute then
    (if system.contains reference then .found reference else .notFound, resolver)
  else
    match (resolver.candidates reference referrer).find? system.contains with
    | some path => (.found path, resolver)
    | none =>
      if global then resolver.searchGlobally system reference else (.notFound, resolver)

def lookup (resolver : Resolver) (system : FileSystem) (text : String) (referrer : Option Path)
    (global : Bool) : Resolution × Resolver :=
  let chars := Chars.trim text.toList
  if chars = [] ∨ chars.any isForbidden then (.rejected, resolver)
  else
    match variableIn? chars with
    | some name => (.unresolved (.ofList name), resolver.note ⟨.ofList name, .ofList chars⟩)
    | none => resolver.lookupPath system (Path.normalize ⟨.ofList chars⟩) referrer global

/-- Find the file that a reference names. -/
def resolve (resolver : Resolver) (system : FileSystem) (text : String) (referrer : Option Path) :
    Resolution × Resolver :=
  resolver.lookup system text referrer true

/-- Find the file that a reference names, without searching the whole workspace. -/
def resolveLocal (resolver : Resolver) (system : FileSystem) (text : String)
    (referrer : Option Path) : Resolution × Resolver :=
  resolver.lookup system text referrer false

end Resolver

end FirmwareWorkspace
