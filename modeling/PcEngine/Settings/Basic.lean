/-
PcEngine/Settings/Basic.lean

The settings of the machine, and how they are written down.

* `threshold` — processor cycles per count of the timer;
* `territory` — where the console was sold;
* `repeatRom` — whether bank numbers past the end of the ROM read it again;
* `logLevel` — the level of categories that have none of their own.

Settings are kept as a JSON object with one member per line
(`Settings.render`).  A member's key and the spelling of its value are stated
here once, for writing and for reading.
-/
import PcEngine.Joypad
import PcEngine.Log.Level
import PcEngine.Timer

namespace PcEngine

/-- The settings; the fields are described at the head of the file. -/
structure Settings where
  threshold : UInt32
  territory : Territory
  repeatRom : Bool
  logLevel : Log.Level
  deriving DecidableEq

namespace Settings

/-- The settings of a machine that is not told otherwise. -/
def standard : Settings := ⟨defaultThreshold, .japan, false, .off⟩

/-! ### Members -/

/-- A member of the object. -/
inductive Field where
  | threshold
  | territory
  | repeatRom
  | logLevel
  deriving DecidableEq

namespace Field

/-- All members, in the order in which they are written. -/
def all : List Field := [.threshold, .territory, .repeatRom, .logLevel]

def key : Field → String
  | .threshold => "timer_tick_cycles"
  | .territory => "region"
  | .repeatRom => "mirror_rom"
  | .logLevel => "log_level"

/-- The member with a key; keys of no member are ignored in a text. -/
def ofKey? (key : List Char) : Option Field :=
  all.find? fun f => f.key.toList = key

end Field

/-! ### Spellings -/

def territoryName : Territory → String
  | .japan => "Japan"
  | .turboGrafx => "TurboGrafx"

def territoryOfName? (name : List Char) : Option Territory :=
  [Territory.japan, .turboGrafx].find? fun t => (territoryName t).toList = name

def levelOfName? (name : List Char) : Option Log.Level :=
  Log.Level.all.find? fun l => l.name.toList = name

/-! ### Writing -/

/-- A string without characters that need an escape, in quotes. -/
def quote (text : String) : List Char := '"' :: text.toList ++ ['"']

/-- The value of a member. -/
def renderValue (s : Settings) : Field → List Char
  | .threshold => Nat.toDigits 10 s.threshold.toNat
  | .territory => quote (territoryName s.territory)
  | .repeatRom => (if s.repeatRom then "true" else "false").toList
  | .logLevel => quote s.logLevel.name

/-- A member on a line of its own. -/
def renderMember (s : Settings) (f : Field) : List Char :=
  "\n  ".toList ++ quote f.key ++ ": ".toList ++ s.renderValue f

/-- The text of the settings, as characters. -/
def renderChars (s : Settings) : List Char :=
  '\x7b' :: [','].intercalate (Field.all.map s.renderMember) ++ ['\n', '\x7d']

/-- The text of the settings. -/
def render (s : Settings) : String := String.ofList s.renderChars

end Settings

end PcEngine
