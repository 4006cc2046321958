/-
PcEngine/Machine/Hardware.lean

The hardware page: which device an offset selects, and what reading or writing
there does.

    $0000-$03FF   video controller      $1000-$13FF   joypads
    $0400-$07FF   palette               $1400-$17FF   interrupt controller
    $0800-$0BFF   sound generator       $1800-$1FFF   nothing
    $0C00-$0FFF   timer

Every access leaves its byte in the latch.  Where no device drives the data
bus, wholly or in some bits, a read finds the latch there.
-/
import PcEngine.Machine.Basic

namespace PcEngine

/-- What an offset in the hardware page selects: a device, and for most of them
one of its registers. -/
inductive Target where
  | video (register : Nat)
  | palette (register : Nat)
  | sound (register : Nat)
  | timer (register : Nat)
  | joypad
  | interrupts (register : Nat)
  | nothing (offset : Nat)

/-- The target of an offset.  Devices decode only the lowest bits. -/
def Target.ofOffset (offset : Nat) : Target :=
  match offset / 1024 with
  | 0 => .video (offset % 4)
  | 1 => .palette (offset % 8)
  | 2 => .sound (offset % 16)
  | 3 => .timer (offset % 2)
  | 4 => .joypad
  | 5 => .interrupts (offset % 4)
  | _ => .nothing offset

namespace Machine

/-! ### Interrupt lines of devices -/

/-- Raise the video controller's line if an event was queued. -/
def raiseVideoIf (m : Machine) (queued : Bool) : Machine :=
  if queued then { m with interrupts := m.interrupts.raise .video } else m

/-- What raising the video controller's line reports. -/
def raiseVideoNotices (m : Machine) (queued : Bool) : List Notice :=
  if queued then m.interrupts.raiseNotices .video else []

/-! ### Reading -/

/-- Read from a device.  Reading the status of the video controller also lowers
its interrupt line. -/
def readTarget (m : Machine) : Target → Byte × Machine
  | .video 0 =>
    let (status, video) := m.video.readStatus
    (status, { m with video := video, interrupts := m.interrupts.clear .video })
  | .video 2 => (m.video.readLow m.store.vram, m)
  | .video 3 =>
    let (value, video) := m.video.readHigh m.store.vram
    (value, { m with video := video })
  | .palette 4 => (m.palette.readLow, m)
  | .palette 5 =>
    let (value, palette) := m.palette.readHigh
    (value, { m with palette := palette })
  | .timer 0 => ((m.timer.counter &&& 0x7F) ||| (m.latch &&& 0x80), m)
  | .timer _ => ((if m.timer.running then 1 else 0) ||| (m.latch &&& 0xFE), m)
  | .joypad => (m.joypad.read, m)
  | .interrupts 2 => (m.interrupts.mask ||| (m.latch &&& 0xF8), m)
  | .interrupts 3 => (m.interrupts.status ||| (m.latch &&& 0xF8), m)
  | .video _ | .palette _ | .sound _ | .interrupts _ | .nothing _ => (m.latch, m)

/-- Read at an offset of the hardware page. -/
def readHardware (m : Machine) (offset : Nat) : Byte × Machine :=
  let (value, m) := m.readTarget (.ofOffset offset)
  (value, { m with latch := value })

/-- Reading where there is nothing is reported. -/
def readHardwareNotices (offset : Nat) : List Notice :=
  match Target.ofOffset offset with
  | .nothing offset => [.unconnectedRead offset]
  | _ => []

/-! ### Writing -/

/-- Write to a device.  Writing the status of the interrupt controller lowers
the timer's line. -/
def writeTarget (m : Machine) (value : Byte) : Target → Machine
  | .video 0 => { m with video := m.video.select value }
  | .video 2 => { m with video := m.video.writeLow value }
  | .video 3 =>
    let (queued, video, vram) := m.video.writeHigh value m.store.vram
    { m with video := video, store := { m.store with vram := vram } }.raiseVideoIf queued
  | .palette 0 => { m with palette := m.palette.writeControl value }
  | .palette 2 => { m with palette := m.palette.writeIndexLow value }
  | .palette 3 => { m with palette := m.palette.writeIndexHigh value }
  | .palette 4 => { m with palette := m.palette.writeLow value }
  | .palette 5 => { m with palette := m.palette.writeHigh value }
  | .sound n => { m with sound := m.sound.write n value }
  | .timer 0 => { m with timer := m.timer.writeReload value }
  | .timer _ => { m with timer := m.timer.writeControl value }
  | .joypad => { m with joypad := m.joypad.write value }
  | .interrupts 2 => { m with interrupts := m.interrupts.setMask value }
  | .interrupts 3 => { m with interrupts := m.interrupts.clear .timer }
  | .video _ | .palette _ | .interrupts _ | .nothing _ => m

/-- Write at an offset of the hardware page. -/
def writeHardware (m : Machine) (offset : Nat) (value : Byte) : Machine :=
  { m with latch := value }.writeTarget value (.ofOffset offset)

/-- What writing at an offset of the hardware page reports. -/
def writeHardwareNotices (m : Machine) (offset : Nat) (value : Byte) : List Notice :=
  match Target.ofOffset offset with
  | .video 3 => m.video.writeHighNotices value ++ m.raiseVideoNotices m.video.highQueues
  | .palette 0 => Video.Palette.controlNotices value
  | .sound n => m.sound.writeNotices n value
  | .timer 1 => m.timer.controlNotices value
  | .joypad => m.joypad.writeNotices value
  | .nothing offset => [.unconnectedWrite offset value]
  | _ => []

end Machine

end PcEngine
