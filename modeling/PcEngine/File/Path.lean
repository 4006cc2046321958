/-
PcEngine/File/Path.lean

Paths, and where files are.

A path is names with slashes between them.  It starts in some folder or, if it
begins with a slash, in the root; `.` stays in a folder, `..` leads to the one
around it, and the root has none around it.  Since these two names need no
looking up, the folders that a path can reach by them are numbers of levels
above the start (`Base`), and a file has a base and a name there.
-/

namespace PcEngine.File

/-! ### Where files are -/

/-- A folder that is known without looking anything up. -/
inductive Base where
  /-- So many levels above the folder in which paths start. -/
  | above (levels : Nat)
  /-- The folder that has none around it. -/
  | root
  deriving DecidableEq

/-- The folder around a folder. -/
def Base.outer : Base → Base
  | .above levels => .above (levels + 1)
  | .root => .root

/-- Where a file is. -/
structure Location where
  base : Base
  name : String
  deriving DecidableEq

/-! ### Paths -/

/-- How long a name may be, in bytes of UTF-8. -/
def nameLimit : Nat := 255

/-- How long a path may be, in bytes of UTF-8. -/
def pathLimit : Nat := 4095

/-- The folder in which a path starts. -/
def pathStart (path : String) : Base :=
  if path.toList.head? = some '/' then .root else .above 0

/-- The names that a path is made of; slashes in a row count as one. -/
def pathNames (path : String) : List String := (path.splitOn "/").filter fun name => name ≠ ""

/-- Whether a path says by a slash at its end that it leads to a folder. -/
def endsInSlash (path : String) : Bool := path.toList.getLast? = some '/'

end PcEngine.File
