/-
PcEngine/Machine/Operation.lean

Everything that can be done to a machine, as values.

The processor reads, writes, selects banks and lets time pass; the renderer
raises events and takes them; the sound mixer takes samples; the host sets pads
and restores backup RAM.  The host may also act on the video controller or the
interrupt controller alone, past the bus, which would keep the two in step.

`Machine.step` carries out one operation, `Machine.run` any number of them, and
`Machine.notices` says what one reports.
-/
import PcEngine.Machine.Access

namespace PcEngine.Machine

/-! ### Time, picture and sound -/

/-- Let processor cycles pass. -/
def tick (m : Machine) (cycles : Nat) : Machine :=
  let (fired, timer) := m.timer.advance cycles
  let m := { m with timer := timer }
  if fired then { m with interrupts := m.interrupts.raise .timer } else m

/-- Let an event of the picture happen; says whether it was queued. -/
def raiseEvent (m : Machine) (e : Video.Event) : Bool × Machine :=
  let (queued, video) := m.video.raise e
  (queued, { m with video := video }.raiseVideoIf queued)

/-- The vertical blank's copy of the sprite table; says whether its event was
queued. -/
def serviceSprites (m : Machine) : Bool × Machine :=
  let (queued, video) := m.video.serviceSprites m.store.vram
  (queued, { m with video := video }.raiseVideoIf queued)

/-- Take the newest pending event; with the last one the interrupt line goes
low. -/
def popEvent (m : Machine) : Option Video.Event × Machine :=
  let (e, video) := m.video.popEvent
  let m := { m with video := video }
  (e, if video.pending.isEmpty then { m with interrupts := m.interrupts.clear .video } else m)

/-- Take a sample from a channel. -/
def nextSample (m : Machine) (channel : Nat) : Byte × Machine :=
  let (sample, sound) := m.sound.nextSample channel
  (sample, { m with sound := sound })

/-- Let clocks of the sound generator pass on a channel. -/
def clockSamples (m : Machine) (channel clocks : Nat) : Byte × Machine :=
  let (sample, sound) := m.sound.clock channel clocks
  (sample, { m with sound := sound })

/-! ### The host -/

/-- Set the pressed buttons of a pad. -/
def setPad (m : Machine) (n : Nat) (pressed : Byte) : Machine :=
  { m with joypad := m.joypad.setPad n pressed }

/-- Put saved bytes into backup RAM. -/
def restoreBackup (m : Machine) (data : Array Byte) : Machine :=
  { m with store := m.store.restoreBackup data }

/-! ### Operations -/

/-- Something to do with a machine. -/
inductive Op where
  | read (addr : Word)
  | write (addr : Word) (value : Byte)
  | readWord (addr : Word)
  | writeWord (addr value : Word)
  | selectBank (slot : Nat) (bank : Byte)
  | tick (cycles : UInt32)
  | reset
  | raiseEvent (e : Video.Event)
  | serviceSprites
  | popEvent
  | nextSample (channel : Nat)
  | clockSamples (channel : Nat) (clocks : UInt32)
  | setPad (n : Nat) (pressed : Byte)
  | restoreBackup (data : Array Byte)
  /-- Act on the video controller alone. -/
  | video (op : Video.Op)
  /-- Act on the interrupt controller alone. -/
  | interrupts (op : Interrupt.Op)

/-- Carry out an operation. -/
def step (m : Machine) : Op → Answer × Machine
  | .read addr =>
    let (value, m) := m.read addr
    (.byte value, m)
  | .write addr value => (.done, m.write addr value)
  | .readWord addr => (.word (m.readWord addr), m)
  | .writeWord addr value => (.done, m.writeWord addr value)
  | .selectBank slot bank => (.done, m.selectBank slot bank)
  | .tick cycles => (.done, m.tick cycles.toNat)
  | .reset => (.done, m.reset)
  | .raiseEvent e =>
    let (queued, m) := m.raiseEvent e
    (.flag queued, m)
  | .serviceSprites =>
    let (queued, m) := m.serviceSprites
    (.flag queued, m)
  | .popEvent =>
    let (e, m) := m.popEvent
    (.event e, m)
  | .nextSample channel =>
    let (sample, m) := m.nextSample channel
    (.byte sample, m)
  | .clockSamples channel clocks =>
    let (sample, m) := m.clockSamples channel clocks.toNat
    (.byte sample, m)
  | .setPad n pressed => (.done, m.setPad n pressed)
  | .restoreBackup data => (.done, m.restoreBackup data)
  | .video op =>
    let (answer, video) := m.video.step op
    (answer, { m with video := video })
  | .interrupts op => (.done, { m with interrupts := m.interrupts.step op })

/-- Carry out operations one after the other. -/
def run (m : Machine) (ops : List Op) : Machine :=
  ops.foldl (fun m op => (m.step op).2) m

/-- What an operation reports. -/
def notices (m : Machine) : Op → List Notice
  | .read addr => m.readNotices addr
  | .write addr value => m.writeNotices addr value
  | .selectBank slot bank => Slots.selectNotices slot bank
  | .tick cycles =>
    if (m.timer.advance cycles.toNat).1 then m.interrupts.raiseNotices .timer else []
  | .reset => resetNotices
  | .raiseEvent e => m.raiseVideoNotices (m.video.eventEnabled e)
  | .serviceSprites => m.raiseVideoNotices (m.video.serviceSprites m.store.vram).1
  | .video op => m.video.notices op
  | .interrupts op => m.interrupts.notices op
  | _ => []

/-- A machine that a card and some operations lead to. -/
def Reachable (m : Machine) : Prop :=
  ∃ rom card settings start ops, powerOn rom card settings = .ok start ∧ m = start.run ops

end PcEngine.Machine
