import FirmwareWorkspace.Path

/-!
# Dialects of build descriptions

The extension of a file tells its dialect. A file without an extension of its
own dialect takes that of the file that includes it.
-/
namespace FirmwareWorkspace

inductive Dialect where
  /-- Platform description. -/
  | dsc
  /-- Module information. -/
  | inf
  /-- Package declaration. -/
  | dec
  /-- Flash layout. -/
  | fdf
  deriving DecidableEq, Repr

namespace Dialect

def all : List Dialect := [dsc, inf, dec, fdf]

def name : Dialect → String
  | dsc => "dsc"
  | inf => "inf"
  | dec => "dec"
  | fdf => "fdf"

/-- The dialect whose name is the extension, in any letter case. -/
def ofPath? (path : Path) : Option Dialect :=
  all.find? fun dialect => path.hasExtension dialect.name

/-- The section types of a dialect, in lower case. -/
def knownSections : Dialect → List String
  | dsc => ["defines", "skuids", "defaultstores", "libraryclasses", "components", "buildoptions",
      "pcdsfixedatbuild", "pcdspatchableinmodule", "pcdsfeatureflag", "pcdsdynamic",
      "pcdsdynamicdefault", "pcdsdynamichii", "pcdsdynamicvpd", "pcdsdynamicex",
      "pcdsdynamicexdefault", "pcdsdynamicexhii", "pcdsdynamicexvpd", "userextensions"]
  | inf => ["defines", "sources", "binaries", "packages", "libraryclasses", "protocols", "ppis",
      "guids", "pcd", "pcdex", "fixedpcd", "patchpcd", "featurepcd", "buildoptions", "depex",
      "userextensions"]
  | dec => ["defines", "includes", "libraryclasses", "guids", "protocols", "ppis",
      "pcdsfixedatbuild", "pcdspatchableinmodule", "pcdsfeatureflag", "pcdsdynamic",
      "pcdsdynamicex", "userextensions"]
  | fdf => ["defines", "fd", "fv", "capsule", "fmppayload", "rule", "optionrom", "userextensions"]

def isKnownSection (dialect : Dialect) (sectionType : String) : Bool :=
  dialect.knownSections.contains sectionType

end Dialect

end FirmwareWorkspace
