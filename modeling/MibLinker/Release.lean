/-!
# Releases

A definition that needs a newer registry can ask for a minimum release. Only the three numbers of a
release are compared; what comes after them in a version is shown and otherwise ignored.
-/

namespace MibLinker

structure Release where
  major : Nat
  minor : Nat
  patch : Nat
deriving DecidableEq

namespace Release

def text (r : Release) : String :=
  toString r.major ++ "." ++ toString r.minor ++ "." ++ toString r.patch

def before (x y : Release) : Bool :=
  x.major < y.major
    || (x.major == y.major && (x.minor < y.minor || (x.minor == y.minor && x.patch < y.patch)))

end Release

/-- A release with the labels of a build; an empty label is not shown. -/
structure Version where
  release : Release
  preRelease : String := ""
  build : String := ""
deriving DecidableEq

namespace Version

/-- The release, the pre-release label behind a hyphen, and the build label behind a plus sign. -/
def text (v : Version) : String :=
  v.release.text ++ (if v.preRelease = "" then "" else "-" ++ v.preRelease)
    ++ (if v.build = "" then "" else "+" ++ v.build)

def current : Version := { release := ⟨0, 2, 0⟩ }

end Version

structure VersionError where
  required : Release
  actual : Version
deriving DecidableEq

def VersionError.message (e : VersionError) : String :=
  "mibreg version " ++ e.required.text ++ " or later required, running " ++ e.actual.text

namespace Version

/-- Accepts a version whose release does not come before the required one. -/
def check (actual : Version) (required : Release) : Except VersionError Unit :=
  if actual.release.before required then .error ⟨required, actual⟩ else .ok ()

def checkMinimum (required : Release) : Except VersionError Unit := current.check required

/-- Checks the version of this library against the first patch of a minor release. -/
def checkMinimumMinor (major minor : Nat) : Except VersionError Unit :=
  checkMinimum ⟨major, minor, 0⟩

end Version

end MibLinker
