/-
PcEngine/Log/Journal.lean

Where the lines of the log go: to the screen, or to the end of a file.
-/
import PcEngine.File.Folder
import PcEngine.Log.State

namespace PcEngine.Log

/-- A log with its outputs.

* `log` — what is wanted and what gets through;
* `screen` — the lines written to the screen;
* `folder` — the files that lines have been written to;
* `target` — the file that lines go to now, if it is not the screen. -/
structure Journal where
  log : State
  screen : Array String
  folder : File.Folder
  target : Option File.Location

namespace Journal

/-- Nothing written, output to the screen. -/
def ofLog (log : State) : Journal := ⟨log, #[], .empty, none⟩

/-- Write a line. -/
def write (j : Journal) (line : Line) : Journal :=
  match j.target with
  | some file => { j with folder := j.folder.append file line.render }
  | none => { j with screen := j.screen.push line.render }

/-- Record a message; says whether it was put into words. -/
def record (j : Journal) (c : Category) (l : Level) (text : String) : Bool × Journal :=
  -- the words leave a mark when they are asked for
  let words : Unit → StateM Bool String := fun _ => do
    set true
    pure text
  let ((lines, log), worded) := (j.log.recordM c l words).run false
  (worded, lines.foldl write { j with log := log })

/-- Record the same message a number of times; says how often it was put into
words. -/
def recordMany (j : Journal) (c : Category) (l : Level) (text : String) (n : Nat) :
    Nat × Journal :=
  n.fold (fun _ _ (count, j) =>
    let (worded, j) := j.record c l text
    (if worded then count + 1 else count, j)) (0, j)

/-- Record notices in order. -/
def recordNotices (j : Journal) : List Notice → Journal
  | [] => j
  | n :: ns =>
    let (lines, log) := j.log.recordNotice n
    recordNotices (lines.foldl write { j with log := log }) ns

/-- Send further lines to the end of a file.  If the file cannot be opened, the
output stays where it is. -/
def openFile (j : Journal) (path : String) : Except File.Fault Journal := do
  let (file, folder) ← j.folder.create path
  .ok { j with folder := folder, target := some file }

/-- Send further lines to the screen. -/
def closeFile (j : Journal) : Journal := { j with target := none }

/-- The lines of a file. -/
def fileLines (j : Journal) (path : String) : Array String :=
  match j.folder.resolve path with
  | .ok file => j.folder.lines file
  | .error _ => #[]

end Journal

end PcEngine.Log
