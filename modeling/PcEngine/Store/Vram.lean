/-
PcEngine/Store/Vram.lean

Video memory: 32768 words.

Addresses are 16-bit, so the memory appears twice in the address space:
address `a` means cell `a mod 32768`.  The memory is kept as words because
that is how the video controller uses it; the byte view (`byte`, `setByte`,
`bytes`) is what the host sees, low byte first.
-/
import PcEngine.Word

namespace PcEngine

/-- Number of words of video memory. -/
def vramWords : Nat := 32768

/-- Number of bytes of video memory. -/
def vramSize : Nat := 2 * vramWords

/-- Video memory. -/
structure Vram where
  cells : Vector Word vramWords

namespace Vram

/-- All words zero. -/
def blank : Vram := ⟨Vector.replicate vramWords 0⟩

/-- The cell an address means. -/
def cellOf (addr : Word) : Fin vramWords :=
  ⟨addr.toNat % vramWords, Nat.mod_lt _ (by decide)⟩

/-! ### Words -/

/-- The word at an address. -/
def read (v : Vram) (addr : Word) : Word :=
  v.cells[cellOf addr]

/-- Replace the word at an address. -/
def write (v : Vram) (addr value : Word) : Vram :=
  ⟨v.cells.set (cellOf addr).val value (cellOf addr).isLt⟩

/-! ### Bytes -/

/-- Byte `i`; zero past the end. -/
def byte (v : Vram) (i : Nat) : Byte :=
  let word := v.cells[i / 2]?.getD 0
  if i % 2 = 0 then Word.low word else Word.high word

/-- Replace byte `i`; nothing past the end. -/
def setByte (v : Vram) (i : Nat) (b : Byte) : Vram :=
  let word := v.cells[i / 2]?.getD 0
  ⟨v.cells.setIfInBounds (i / 2) (if i % 2 = 0 then Word.setLow word b else Word.setHigh word b)⟩

/-- All bytes in order. -/
def bytes (v : Vram) : Array Byte :=
  v.cells.toArray.flatMap fun w => #[Word.low w, Word.high w]

/-! ### Reading after writing -/

theorem read_write (v : Vram) (a b value : Word) :
    (v.write a value).read b = if cellOf b = cellOf a then value else v.read b := by
  simp only [read, write, Fin.getElem_fin, Vector.getElem_set]
  by_cases h : cellOf b = cellOf a
  · simp [h]
  · have h' : (cellOf a).val ≠ (cellOf b).val := fun e => h (Fin.ext e.symm)
    simp [h, h']

end Vram

end PcEngine
