import InteropBindings.Path

/-!
# Platform files

Declaration files of the platform itself are told by how their names start. They take no part in a run.
-/

namespace InteropBindings

open Text

/-- How the names of platform files start. -/
structure PlatformFilter where
  starts : List String := ["lib."]
deriving DecidableEq, Repr

/-- Whether a path leads to a platform file. A name that spells no string is none. -/
def PlatformFilter.isPlatform (filter : PlatformFilter) (path : Path) : Bool :=
  (path.fileName.bind RawText.string?).any fun name => filter.starts.any fun start => beginsWith start name

end InteropBindings
