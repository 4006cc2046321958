/-
PcEngine/Settings/File.lean

Settings in a file.  Where there is no file, the standard settings apply.
-/
import PcEngine.Error
import PcEngine.Settings.Reader

namespace PcEngine.Settings

/-- Read settings from a text. -/
def parse (text : String) : Except Error Settings :=
  (ofText text).mapError .settings

/-- Load settings from a file. -/
def load (p : File.Place) : Except Error Settings :=
  match p.readText with
  | .ok text => parse text
  | .error .notFound => .ok standard
  | .error fault => .error (.file fault)

/-- Save settings to a file. -/
def save (s : Settings) (p : File.Place) : Except Error File.Place :=
  (p.writeText s.render).mapError .file

end PcEngine.Settings
