/-
PcEngine/Video/Palette.lean

The palette: 512 colours of three bits each of green, red and blue.

* `entries` — the colours, background first, then sprites;
* `index` — the entry that data accesses go to; an access to the high byte
  moves it on, from the last entry to the first;
* `control` — selects the pixel clock.

A colour has nine bits, so of the high byte only bit 0 is kept, and the others
read as ones.
-/
import PcEngine.Answer
import PcEngine.Notice

namespace PcEngine.Video

def paletteSize : Nat := 512

/-- The pixel clock, in whole megahertz. -/
inductive PixelClock where
  | mhz5
  | mhz7
  | mhz10
  deriving DecidableEq

/-- The palette; the fields are described at the head of the file. -/
structure Palette where
  entries : Vector Word paletteSize
  index : Word
  control : Byte

namespace Palette

/-- All colours black, the first entry selected. -/
def powerOn : Palette := ⟨.replicate paletteSize 0, 0, 0⟩

/-- Entry number `n`, counted modulo 512. -/
def position (n : Nat) : Fin paletteSize := ⟨n % paletteSize, Nat.mod_lt _ (by decide)⟩

def entry (p : Palette) (n : Nat) : Word := p.entries[position n]

/-- The selected entry. -/
def current (p : Palette) : Word := p.entry p.index.toNat

def setCurrent (p : Palette) (colour : Word) : Palette :=
  let i := position p.index.toNat
  { p with entries := p.entries.set i.val colour i.isLt }

/-- Move on to the next entry. -/
def advance (p : Palette) : Palette :=
  { p with index := UInt16.ofNat ((p.index.toNat + 1) % paletteSize) }

/-! ### Control and index -/

def writeControl (p : Palette) (value : Byte) : Palette := { p with control := value }

def pixelClock (p : Palette) : PixelClock :=
  match p.control.toNat % 4 with
  | 0 => .mhz5
  | 1 => .mhz7
  | _ => .mhz10

def writeIndexLow (p : Palette) (value : Byte) : Palette :=
  { p with index := Word.setLow p.index value }

/-- Of the high byte of the index only bit 0 counts. -/
def writeIndexHigh (p : Palette) (value : Byte) : Palette :=
  { p with index := Word.setHigh p.index (value % 2) }

/-! ### Colours -/

def writeLow (p : Palette) (value : Byte) : Palette :=
  p.setCurrent (Word.setLow p.current value)

/-- Write the ninth bit of the selected colour and move on. -/
def writeHigh (p : Palette) (value : Byte) : Palette :=
  (p.setCurrent (Word.setHigh p.current (value % 2))).advance

def readLow (p : Palette) : Byte := Word.low p.current

/-- Read the ninth bit of the selected colour, all bits above it set, and move
on. -/
def readHigh (p : Palette) : Byte × Palette :=
  (Word.high p.current ||| 0xFE, p.advance)

/-- A three-bit intensity, the low bits of `n`, on a scale of 255. -/
def intensity (n : Nat) : Byte := UInt8.ofNat (n % 8 * 255 / 7)

/-- Red, green and blue of entry `n`. -/
def rgb (p : Palette) (n : Nat) : Byte × Byte × Byte :=
  let colour := (p.entry n).toNat
  (intensity (colour / 8), intensity (colour / 64), intensity colour)

/-- What writing the control register reports. -/
def controlNotices (value : Byte) : List Notice := [.paletteControl value]

/-! ### Operations -/

/-- An access to a register of the palette, or a reset. -/
inductive Op where
  | writeControl (value : Byte)
  | writeIndexLow (value : Byte)
  | writeIndexHigh (value : Byte)
  | writeLow (value : Byte)
  | writeHigh (value : Byte)
  | readLow
  | readHigh
  | reset

/-- Carry out an operation. -/
def step (p : Palette) : Op → Answer × Palette
  | .writeControl value => (.done, p.writeControl value)
  | .writeIndexLow value => (.done, p.writeIndexLow value)
  | .writeIndexHigh value => (.done, p.writeIndexHigh value)
  | .writeLow value => (.done, p.writeLow value)
  | .writeHigh value => (.done, p.writeHigh value)
  | .readLow => (.byte p.readLow, p)
  | .readHigh =>
    let (value, p) := p.readHigh
    (.byte value, p)
  | .reset => (.done, powerOn)

/-- Carry out operations one after the other. -/
def run (p : Palette) (ops : List Op) : Palette := ops.foldl (fun p op => (p.step op).2) p

/-- What an operation reports. -/
def notices : Op → List Notice
  | .writeControl value => controlNotices value
  | _ => []

end Palette

end PcEngine.Video
