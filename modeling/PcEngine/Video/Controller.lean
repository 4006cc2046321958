/-
PcEngine/Video/Controller.lean

The video controller as the processor and the renderer see it.

* `registers`, `selected` — 32 word registers; the processor selects one and
  then writes or reads its bytes.  Writing a high byte is what completes an
  access: it writes video memory, starts a transfer, or asks for one.
* `status` — the latch of events since it was last read, and in bit 6 whether
  a transfer is going on.
* `pending` — the events whose interrupt was enabled when they happened.
* `spritesPending` — a copy of the sprite table has been asked for.
* `modeChanged` — a register that shapes the picture was written.
* `sprites` — the copy of the sprite table that the renderer draws from.

Video memory is not part of the controller: operations that use it take it as
an argument and give it back.  An operation that can queue an event says
whether it did, since the bus raises the interrupt line then.
-/
import PcEngine.Answer
import PcEngine.Notice
import PcEngine.Store.Vram
import PcEngine.Video.EventQueue
import PcEngine.Video.Register

namespace PcEngine.Video

/-! ### Numbers -/

/-- The status bit that says a transfer is going on. -/
def busyBit : Byte := 0x40

/-- The four steps that the address registers can take. -/
def addressSteps : Vector Word 4 := #v[1, 32, 64, 128]

/-- Sixty-four sprites of four words each. -/
def spriteWords : Nat := 256

/-! ### The controller -/

/-- The video controller; the fields are described at the head of the file. -/
structure Controller where
  registers : Vector Word registerCount
  selected : Nat
  status : Byte
  pending : EventQueue
  spritesPending : Bool
  modeChanged : Bool
  sprites : Vector Word spriteWords

namespace Controller

/-- All registers and sprite words zero, nothing pending. -/
def powerOn : Controller where
  registers := .replicate registerCount 0
  selected := 0
  status := 0
  pending := .empty
  spritesPending := false
  modeChanged := false
  sprites := .replicate spriteWords 0

/-- Register number `n`, counted modulo 32. -/
def index (n : Nat) : Fin registerCount := ⟨n % registerCount, Nat.mod_lt _ (by decide)⟩

def register (c : Controller) (n : Nat) : Word := c.registers[index n]

def setRegister (c : Controller) (n : Nat) (value : Word) : Controller :=
  { c with registers := c.registers.set (index n).val value (index n).isLt }

/-- Select the register that data accesses go to. -/
def select (c : Controller) (value : Byte) : Controller :=
  { c with selected := value.toNat % registerCount }

/-! ### Status -/

/-- The status latch; reading clears it. -/
def readStatus (c : Controller) : Byte × Controller :=
  (c.status, { c with status := 0 })

/-- Say whether a transfer is going on. -/
def setBusy (c : Controller) (busy : Bool) : Controller :=
  { c with status := if busy then c.status ||| busyBit else c.status &&& ~~~busyBit }

/-! ### Events -/

/-- Whether an event interrupts the processor, by the enable bits of the
control registers. -/
def eventEnabled (c : Controller) : Event → Bool
  | .spriteCollision => Word.bit (c.register Register.control) 0
  | .spriteOverflow => Word.bit (c.register Register.control) 1
  | .rasterMatch => Word.bit (c.register Register.control) 2
  | .verticalBlank => Word.bit (c.register Register.control) 3
  | .spriteTransferDone => Word.bit (c.register Register.transferControl) 0
  | .vramTransferDone => Word.bit (c.register Register.transferControl) 1

/-- Latch an event, and queue it if it is enabled; says whether it was
queued. -/
def raise (c : Controller) (e : Event) : Bool × Controller :=
  let latched := { c with status := c.status ||| e.statusBit }
  if c.eventEnabled e then (true, { latched with pending := c.pending.push e })
  else (false, latched)

/-- Take the newest pending event. -/
def popEvent (c : Controller) : Option Event × Controller :=
  let (e, pending) := c.pending.pop
  (e, { c with pending := pending })

/-- Whether a picture register was written since this was last asked. -/
def takeModeChange (c : Controller) : Bool × Controller :=
  (c.modeChanged, { c with modeChanged := false })

/-! ### Transfers -/

/-- How far the address registers move with each completed access, by bits 11
and 12 of the control register. -/
def addressStep (c : Controller) : Word :=
  addressSteps.get ⟨(c.register Register.control).toNat / 2048 % 4, Nat.mod_lt _ (by decide)⟩

/-- Copy words one after the other, each read after the one before it has been
written. -/
def copyWords (vram : Vram) (source target sourceStep targetStep : Word) : Nat → Vram
  | 0 => vram
  | n + 1 =>
    copyWords (vram.write target (vram.read source)) (source + sourceStep)
      (target + targetStep) sourceStep targetStep n

/-- One word forward, or backward if bit `i` of the transfer control register
is set. -/
def transferStep (c : Controller) (i : Nat) : Word :=
  if Word.bit (c.register Register.transferControl) i then 0xFFFF else 1

/-- How many words the length register asks for. -/
def transferWords (c : Controller) : Nat := (c.register Register.transferLength).toNat + 1

/-- Run the transfer that the transfer registers describe, leave the address
registers behind the last word, and raise its event. -/
def transfer (c : Controller) (vram : Vram) : Bool × Controller × Vram :=
  let source := c.register Register.transferSource
  let target := c.register Register.transferTarget
  let sourceStep := c.transferStep 2
  let targetStep := c.transferStep 3
  let words := c.transferWords
  let vram := copyWords vram source target sourceStep targetStep words
  let c := c.setRegister Register.transferSource (source + UInt16.ofNat words * sourceStep)
  let c := c.setRegister Register.transferTarget (target + UInt16.ofNat words * targetStep)
  let (queued, c) := c.raise .vramTransferDone
  (queued, c, vram)

/-- The renderer's hook at the vertical blank: copy the sprite table if that
was asked for, or if bit 4 of the transfer control register asks for it every
time; says whether the event was queued. -/
def serviceSprites (c : Controller) (vram : Vram) : Bool × Controller :=
  if c.spritesPending || Word.bit (c.register Register.transferControl) 4 then
    let table := c.register Register.spriteTable
    let sprites := .ofFn fun i => vram.read (table + UInt16.ofNat i.val)
    { c with spritesPending := false, sprites := sprites }.raise .spriteTransferDone
  else (false, c)

/-! ### Data accesses -/

/-- Remember that a register that shapes the picture was written. -/
def noteGeometry (c : Controller) : Controller :=
  { c with modeChanged := c.modeChanged || Register.isGeometry c.selected }

/-- Write the low byte of the selected register. -/
def writeLow (c : Controller) (value : Byte) : Controller :=
  (c.setRegister c.selected (Word.setLow (c.register c.selected) value)).noteGeometry

/-- Write the high byte of the selected register and complete the access; says
whether an event was queued. -/
def writeHigh (c : Controller) (value : Byte) (vram : Vram) : Bool × Controller × Vram :=
  let c := c.setRegister c.selected (Word.setHigh (c.register c.selected) value)
  if c.selected = Register.data then
    let addr := c.register Register.writeAddress
    (false, c.setRegister Register.writeAddress (addr + c.addressStep),
      vram.write addr (c.register Register.data))
  else if c.selected = Register.transferLength then c.transfer vram
  else if c.selected = Register.spriteTable then (false, { c with spritesPending := true }, vram)
  else (false, c.noteGeometry, vram)

/-- The low byte of the selected register, or of the word at the read
address. -/
def readLow (c : Controller) (vram : Vram) : Byte :=
  if c.selected = Register.data then Word.low (vram.read (c.register Register.readAddress))
  else Word.low (c.register c.selected)

/-- The high byte of the selected register, or of the word at the read
address, which then moves on. -/
def readHigh (c : Controller) (vram : Vram) : Byte × Controller :=
  if c.selected = Register.data then
    let addr := c.register Register.readAddress
    (Word.high (vram.read addr), c.setRegister Register.readAddress (addr + c.addressStep))
  else (Word.high (c.register c.selected), c)

/-- Whether writing a high byte queues an event: it starts a transfer whose
event is enabled. -/
def highQueues (c : Controller) : Bool :=
  c.selected = Register.transferLength && c.eventEnabled .vramTransferDone

/-- What writing a high byte reports. -/
def writeHighNotices (c : Controller) (value : Byte) : List Notice :=
  let c := c.setRegister c.selected (Word.setHigh (c.register c.selected) value)
  if c.selected = Register.transferLength then
    [.vramTransfer (c.register Register.transferSource) (c.register Register.transferTarget)
      c.transferWords]
  else if c.selected = Register.spriteTable then
    [.spriteTransferScheduled (c.register Register.spriteTable)]
  else []

/-! ### The picture -/

/-- The first line of the display. -/
def firstLine (c : Controller) : Word :=
  let sync := c.register Register.verticalSync
  (Word.high sync).toUInt16 + (Word.low sync).toUInt16

/-- The last line of the display. -/
def lastLine (c : Controller) : Word := c.firstLine + c.register Register.verticalDisplay

/-- Width of the display in pixels. -/
def width (c : Controller) : Word :=
  ((Word.low (c.register Register.horizontalDisplay)).toUInt16 + 1) * 8

/-- Height of the display in lines. -/
def height (c : Controller) : Word := c.register Register.verticalDisplay + 1

def spritesEnabled (c : Controller) : Bool := Word.bit (c.register Register.control) 6

def backgroundEnabled (c : Controller) : Bool := Word.bit (c.register Register.control) 7

end Controller

/-! ### Direct access -/

/-- What the host may do to the controller alone.  Operations that use video
memory are given the memory to use, which need not be the machine's. -/
inductive Op where
  | select (value : Byte)
  | writeLow (value : Byte)
  | writeHigh (value : Byte) (vram : Vram)
  | readHigh (vram : Vram)
  | readStatus
  | setBusy (busy : Bool)
  | raise (e : Event)
  | popEvent
  | takeModeChange
  | serviceSprites (vram : Vram)
  | reset

namespace Controller

/-- Carry out an operation. -/
def step (c : Controller) : Op → Answer × Controller
  | .select value => (.done, c.select value)
  | .writeLow value => (.done, c.writeLow value)
  | .writeHigh value vram =>
    let (queued, c, _) := c.writeHigh value vram
    (.flag queued, c)
  | .readHigh vram =>
    let (value, c) := c.readHigh vram
    (.byte value, c)
  | .readStatus =>
    let (value, c) := c.readStatus
    (.byte value, c)
  | .setBusy busy => (.done, c.setBusy busy)
  | .raise e =>
    let (queued, c) := c.raise e
    (.flag queued, c)
  | .popEvent =>
    let (e, c) := c.popEvent
    (.event e, c)
  | .takeModeChange =>
    let (changed, c) := c.takeModeChange
    (.flag changed, c)
  | .serviceSprites vram =>
    let (queued, c) := c.serviceSprites vram
    (.flag queued, c)
  | .reset => (.done, powerOn)

/-- Carry out operations one after the other. -/
def run (c : Controller) (ops : List Op) : Controller := ops.foldl (fun c op => (c.step op).2) c

/-- What an operation reports. -/
def notices (c : Controller) : Op → List Notice
  | .writeHigh value _ => c.writeHighNotices value
  | _ => []

end Controller

end PcEngine.Video
