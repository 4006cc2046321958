/-
PcEngine/Log/Level.lean

Log levels and log categories.

Levels are ordered from `off`, which lets nothing through, to `trace`, which
lets everything through.  Every message belongs to one category, one per part
of the machine.
-/

namespace PcEngine.Log

/-! ### Levels -/

/-- How much detail is wanted, or how detailed a message is. -/
inductive Level where
  | off
  | error
  | warn
  | info
  | debug
  | trace
  deriving DecidableEq

namespace Level

/-- All levels, least detailed first. -/
def all : List Level := [.off, .error, .warn, .info, .debug, .trace]

/-- The place in the order, `off` being zero. -/
def rank : Level → Nat
  | .off => 0
  | .error => 1
  | .warn => 2
  | .info => 3
  | .debug => 4
  | .trace => 5

/-- The name in settings. -/
def name : Level → String
  | .off => "off"
  | .error => "error"
  | .warn => "warn"
  | .info => "info"
  | .debug => "debug"
  | .trace => "trace"

/-- Read what a person typed: a name in any case, a usual short or long form
of it, or the rank.  Only ASCII letters have case here; no other letter is
the upper case of a letter in these names. -/
def ofInput? (text : String) : Option Level :=
  match text.toLower with
  | "off" | "0" => some .off
  | "error" | "err" | "1" => some .error
  | "warn" | "warning" | "2" => some .warn
  | "info" | "3" => some .info
  | "debug" | "4" => some .debug
  | "trace" | "5" => some .trace
  | _ => none

end Level

/-! ### Categories -/

/-- The part of the machine that a message is about. -/
inductive Category where
  | bus
  | mapper
  | video
  | audio
  | timer
  | interrupts
  | input
  | stubs
  deriving DecidableEq

namespace Category

def all : List Category :=
  [.bus, .mapper, .video, .audio, .timer, .interrupts, .input, .stubs]

/-- The name that starts every line of the category. -/
def name : Category → String
  | .bus => "Bus"
  | .mapper => "Mapper"
  | .video => "Video"
  | .audio => "Audio"
  | .timer => "Timer"
  | .interrupts => "Interrupts"
  | .input => "Input"
  | .stubs => "Stubs"

end Category

end PcEngine.Log
