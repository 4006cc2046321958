/-
PcEngine/Joypad.lean

The joypad connector with a multitap.

A pad's eight buttons are read as two nibbles, pressed buttons as zeros; the
select line says which nibble.  Each time the select line goes up, the multitap
moves on to the next of its five pads, and the clear line takes it back to the
first.  The host can set eight pads; the last three are never scanned.

* `pads` — the pressed buttons of each pad;
* `active` — the pad that is read;
* `select` — the select line;
* `territory` — where the console was sold, which bit 6 tells.
-/
import PcEngine.Notice

namespace PcEngine

/-- Where a console was sold. -/
inductive Territory where
  | japan
  | turboGrafx
  deriving DecidableEq

namespace Joypad

/-- How many pads the host can set. -/
def padCount : Nat := 8

/-- How many pads the multitap scans. -/
def tapCount : Nat := 5

/-- The buttons of a pad. -/
inductive Button where
  | i
  | ii
  | select
  | run
  | up
  | right
  | down
  | left
  deriving DecidableEq

/-- The bit of a button in the state of a pad. -/
def Button.bit : Button → Byte
  | .i => 0x01
  | .ii => 0x02
  | .select => 0x04
  | .run => 0x08
  | .up => 0x10
  | .right => 0x20
  | .down => 0x40
  | .left => 0x80

end Joypad

/-- The joypad connector; the fields are described at the head of the file. -/
structure Joypad where
  pads : Vector Byte Joypad.padCount
  active : Nat
  select : Bool
  territory : Territory

namespace Joypad

/-- No button pressed, the first pad active. -/
def powerOn (territory : Territory) : Joypad := ⟨.replicate padCount 0, 0, false, territory⟩

/-- Back to the first pad with the select line low; the pads stay pressed. -/
def reset (j : Joypad) : Joypad := { j with active := 0, select := false }

/-! ### The host's side -/

/-- Set the pressed buttons of a pad; nothing happens for a pad that does not
exist. -/
def setPad (j : Joypad) (n : Nat) (pressed : Byte) : Joypad :=
  { j with pads := j.pads.setIfInBounds n pressed }

/-- The pressed buttons of a pad; none for a pad that does not exist. -/
def pad (j : Joypad) (n : Nat) : Byte := j.pads[n]?.getD 0

/-! ### The processor's side -/

/-- Whether a value written raises the select line. -/
def selects (value : Byte) : Bool := value &&& 0x01 != 0

/-- Whether a value written clears the scan. -/
def clears (value : Byte) : Bool := value &&& 0x02 != 0

/-- Drive the select and clear lines. -/
def write (j : Joypad) (value : Byte) : Joypad :=
  let next := if selects value && !j.select then (j.active + 1) % tapCount else j.active
  { j with active := if clears value then 0 else next, select := selects value }

/-- Read a nibble of the active pad, bits 4, 5 and 7 set, and bit 6 set on a
console sold in Japan. -/
def read (j : Joypad) : Byte :=
  let released := ~~~j.pad j.active
  let nibble := (if j.select then released >>> 4 else released) &&& 0x0F
  nibble ||| 0xB0 ||| (if j.territory = .japan then 0x40 else 0)

/-- Every write is reported, with the pad it leaves active. -/
def writeNotices (j : Joypad) (value : Byte) : List Notice :=
  [.joypadWritten value (j.write value).active]

/-! ### Operations -/

/-- Something to do with the connector: a write by the processor, or setting a
pad or resetting by the host. -/
inductive Op where
  | write (value : Byte)
  | setPad (n : Nat) (pressed : Byte)
  | reset

/-- Carry out an operation. -/
def step (j : Joypad) : Op → Joypad
  | .write value => j.write value
  | .setPad n pressed => j.setPad n pressed
  | .reset => j.reset

/-- Carry out operations one after the other. -/
def run (j : Joypad) (ops : List Op) : Joypad := ops.foldl step j

/-- What an operation reports. -/
def notices (j : Joypad) : Op → List Notice
  | .write value => j.writeNotices value
  | _ => []

end Joypad

end PcEngine
