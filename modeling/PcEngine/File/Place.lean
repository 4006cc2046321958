/-
PcEngine/File/Place.lean

What a path leads to, and what becomes of reading or writing there.

Only the content of files is of interest, so a place is a value: reading looks
at it and writing gives another one.
-/

namespace PcEngine.File

/-- Why a file could not be used. -/
inductive Fault where
  | notFound
  | isFolder
  | notFolder
  | nameTooLong
  | nameHasNul
  | notText
  deriving DecidableEq

/-- The wording, with the system's number for faults that it numbers. -/
def Fault.message : Fault → String
  | .notFound => "No such file or directory (os error 2)"
  | .isFolder => "Is a directory (os error 21)"
  | .notFolder => "Not a directory (os error 20)"
  | .nameTooLong => "File name too long (os error 36)"
  | .nameHasNul => "file name contained an unexpected NUL byte"
  | .notText => "stream did not contain valid UTF-8"

/-- What a path leads to.

* `file` — a file with some content;
* `vacant` — nothing, but there could be a file;
* `folder` — a folder;
* `nowhere` — nothing, and not even the folder that a file would be in. -/
inductive Place where
  | file (content : ByteArray)
  | vacant
  | folder
  | nowhere

namespace Place

/-- The content of the file. -/
def read : Place → Except Fault ByteArray
  | .file content => .ok content
  | .vacant | .nowhere => .error .notFound
  | .folder => .error .isFolder

/-- The content of the file as text. -/
def readText (p : Place) : Except Fault String := do
  let content ← p.read
  match String.fromUTF8? content with
  | some text => .ok text
  | none => .error .notText

/-- The place after a text has been written there, over whatever the file
held. -/
def writeText (p : Place) (text : String) : Except Fault Place :=
  match p with
  | .file _ | .vacant => .ok (.file text.toUTF8)
  | .folder => .error .isFolder
  | .nowhere => .error .notFound

end Place

end PcEngine.File
