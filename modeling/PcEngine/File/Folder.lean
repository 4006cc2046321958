/-
PcEngine/File/Folder.lean

Text files that are only ever appended to.

Paths start in one folder.  Nothing is known to be in it, in the folders around
it or in the root but the files that have been created there, so every name
before the last one leads to no folder, unless it is `.` or `..`: either there
is no such thing, or it is a file.

`Folder.create` opens a file for appending and creates it if it is not there.  A
path whose last name is `.` or `..`, or that has no name or ends in a slash,
stands for a folder, which cannot be opened that way.
-/
import PcEngine.File.Path
import PcEngine.File.Place

namespace PcEngine.File

/-- The files that are known, each with its lines, in the order of their
creation. -/
structure Folder where
  files : List (Location × Array String)

namespace Folder

def empty : Folder := ⟨[]⟩

/-- The lines of a file; none if there is no such file. -/
def lines (f : Folder) (file : Location) : Array String :=
  match f.files.lookup file with
  | some lines => lines
  | none => #[]

/-- Whether there is such a file. -/
def has (f : Folder) (file : Location) : Bool := (f.files.lookup file).isSome

/-! ### Following paths -/

/-- Follow names that must all lead to folders. -/
def walk (f : Folder) (base : Base) : List String → Except Fault Base
  | [] => .ok base
  | name :: names =>
    if name = "." then f.walk base names
    else if name = ".." then f.walk base.outer names
    else if nameLimit < name.utf8ByteSize then .error .nameTooLong
    else if f.has ⟨base, name⟩ then .error .notFolder
    else .error .notFound

/-- Where the file is that a path leads to, if it can be opened for
appending. -/
def resolve (f : Folder) (path : String) : Except Fault Location :=
  if path.toList.any (· = '\x00') then .error .nameHasNul
  else if pathLimit < path.utf8ByteSize then .error .nameTooLong
  else do
    let names := pathNames path
    let base ← f.walk (pathStart path) names.dropLast
    match names.getLast? with
    | none => .error .isFolder
    | some name =>
      if name = "." || name = ".." || endsInSlash path then .error .isFolder
      else if nameLimit < name.utf8ByteSize then .error .nameTooLong
      else .ok ⟨base, name⟩

/-! ### Opening and writing -/

/-- Open a file for appending, creating it if it is not there; says where it
is. -/
def create (f : Folder) (path : String) : Except Fault (Location × Folder) := do
  let file ← f.resolve path
  if f.has file then .ok (file, f) else .ok (file, ⟨f.files ++ [(file, #[])]⟩)

/-- Add a line to the end of a file. -/
def append (f : Folder) (file : Location) (line : String) : Folder :=
  ⟨f.files.map fun (l, lines) => if l = file then (l, lines.push line) else (l, lines)⟩

end Folder

end PcEngine.File
